import SwStack.Lib.Draining
import SwStack.Lib.MapWeight
import SwStack.Quic.Retirement

/-! The pool of connection ids the peer has issued. Each NEW_CONNECTION_ID frame retires what its
own `retirePriorTo` tells; the largest one seen is not remembered. -/
namespace SwStack.Quic

open SwStack.Lib List

structure NewConnectionId where
  sequenceNumber : Nat
  retirePriorTo : Nat
  connectionId : Bytes
  token : Bytes
  deriving DecidableEq

namespace Connection

abbrev pool (c : Connection) : SortedMap Nat Bytes := c.driver.connectionIds.peerIssued

abbrev poolTokens (c : Connection) : SortedMap Nat Bytes :=
  c.driver.connectionIds.peerStatelessResetTokens

def poolLimit (c : Connection) : Nat := c.setup.localParams.activeConnectionIdLimit

def poolFull (c : Connection) : Prop := c.poolLimit ≤ c.pool.entries.length

instance (c : Connection) : Decidable c.poolFull := inferInstanceAs (Decidable (_ ≤ _))

/-- How often the retirement of an id waits to be sent. -/
def queuedRetirements (c : Connection) (sequenceNumber : Nat) : Nat :=
  c.app.pendingFrames.count (.retireConnectionId sequenceNumber)

def receiveNewConnectionId (c : Connection) (frame : NewConnectionId) : Connection :=
  (c.processNewConnectionId frame.sequenceNumber frame.retirePriorTo frame.connectionId
    frame.token).1

theorem pool_retire (c : Connection) (retirePriorTo sequenceNumber : Nat) :
    (c.retirePeerConnectionIds retirePriorTo).pool.find? sequenceNumber =
      if sequenceNumber < retirePriorTo then none else c.pool.find? sequenceNumber := by
  change ((c.pool.keys.filter (· < retirePriorTo)).foldl SortedMap.erase c.pool).find? _ = _
  rw [SortedMap.find?_foldl_erase]
  by_cases below : sequenceNumber < retirePriorTo
  · rw [if_pos below]
    split
    · rfl
    · rename_i absent
      rw [mem_filter, SortedMap.mem_keys] at absent
      simpa [below] using absent
  · rw [if_neg below, if_neg]
    rw [mem_filter]
    simp [below]

variable {c : Connection} {retirePriorTo : Nat}

theorem poolTokens_retire
    (found : (c.retirePeerConnectionIds retirePriorTo).poolTokens.find? sequenceNumber =
      some token) : c.poolTokens.find? sequenceNumber = some token := by
  change ((c.pool.keys.filter (· < retirePriorTo)).foldl SortedMap.erase c.poolTokens).find? _ = _
    at found
  rw [SortedMap.find?_foldl_erase] at found
  split at found
  · cases found
  · exact found

theorem queuedRetirements_retire (c : Connection) (retirePriorTo sequenceNumber : Nat) :
    (c.retirePeerConnectionIds retirePriorTo).queuedRetirements sequenceNumber =
      c.queuedRetirements sequenceNumber +
        if c.pool.contains sequenceNumber = true ∧ sequenceNumber < retirePriorTo then 1
        else 0 := by
  have pending : (c.retirePeerConnectionIds retirePriorTo).app.pendingFrames =
      c.app.pendingFrames ++
        (c.pool.keys.filter (· < retirePriorTo)).map Frame.retireConnectionId := by
    unfold retirePeerConnectionIds enqueueAll app
    rw [setSpace_spaces, if_pos rfl]
  have injective : Function.Injective Frame.retireConnectionId := by
    intro left right same
    cases same
    rfl
  have nodup : (c.pool.keys.filter (· < retirePriorTo)).Nodup := by
    refine List.Nodup.filter _ ?_
    exact (pairwise_map.mpr c.pool.ordered).imp fun below => below.ne
  unfold queuedRetirements
  rw [pending, count_append, count_map_of_injective _ _ injective]
  congr 1
  have member : sequenceNumber ∈ c.pool.keys.filter (· < retirePriorTo) ↔
      c.pool.contains sequenceNumber = true ∧ sequenceNumber < retirePriorTo := by
    rw [mem_filter, SortedMap.mem_keys, decide_eq_true_eq]
    exact Iff.rfl
  split
  · rename_i held
    exact count_eq_one_of_mem nodup (member.mpr held)
  · rename_i absent
    exact count_eq_zero_of_not_mem fun present => absent (member.mp present)

theorem retirements_of_spaces {d : Connection} (same : d.spaces = c.spaces) (sequenceNumber : Nat) :
    d.queuedRetirements sequenceNumber = c.queuedRetirements sequenceNumber := by
  unfold queuedRetirements app
  rw [same]

/-- The id in use after a frame has been taken into the pool. -/
def adoptedSequence (c : Connection) (frame : NewConnectionId) : Nat :=
  if frame.retirePriorTo ≤ c.driver.connectionIds.currentPeerSequence then
    c.driver.connectionIds.currentPeerSequence
  else frame.sequenceNumber

def adoptedId (c : Connection) (frame : NewConnectionId) : Bytes :=
  if frame.retirePriorTo ≤ c.driver.connectionIds.currentPeerSequence then
    c.driver.connectionIds.peerConnectionId
  else frame.connectionId

/-- A frame has been taken into the pool: its retirements are made and its id is there. -/
structure Takes (before : Connection) (frame : NewConnectionId) (after : Connection) : Prop where
  pool : ∀ sequenceNumber, after.pool.find? sequenceNumber =
    if sequenceNumber = frame.sequenceNumber then some frame.connectionId
    else if sequenceNumber < frame.retirePriorTo then none else before.pool.find? sequenceNumber
  size : after.pool.entries.length ≤ before.poolLimit ∨
    after.pool.entries.length ≤ before.pool.entries.length
  tokens : ∀ sequenceNumber token, after.poolTokens.find? sequenceNumber = some token →
    (sequenceNumber = frame.sequenceNumber ∧ token = frame.token) ∨
      before.poolTokens.find? sequenceNumber = some token
  retirements : ∀ sequenceNumber, after.queuedRetirements sequenceNumber =
    before.queuedRetirements sequenceNumber +
      if before.pool.contains sequenceNumber = true ∧ sequenceNumber < frame.retirePriorTo then 1
      else 0
  current : after.driver.connectionIds.currentPeerSequence = before.adoptedSequence frame
  inUse : after.driver.connectionIds.peerConnectionId = before.adoptedId frame
  limit : after.poolLimit = before.poolLimit

theorem length_pool_retire (c : Connection) (retirePriorTo : Nat) :
    (c.retirePeerConnectionIds retirePriorTo).pool.entries.length ≤ c.pool.entries.length := by
  have walk : ∀ (keys : List Nat) (map : SortedMap Nat Bytes),
      (keys.foldl SortedMap.erase map).entries.length ≤ map.entries.length := by
    intro keys
    induction keys with
    | nil => exact fun _ => le_rfl
    | cons first rest ih =>
      exact fun map => (ih (map.erase first)).trans (length_filter_le _ _)
  exact walk _ _

/-- What a frame agrees with: an id and a token of its own, the same at every arrival. -/
structure Agrees (c : Connection) (frame : NewConnectionId) : Prop where
  nonempty : frame.connectionId ≠ []
  short : frame.connectionId.length ≤ 20
  ordered : frame.retirePriorTo ≤ frame.sequenceNumber
  id : ∀ connectionId, c.pool.find? frame.sequenceNumber = some connectionId →
    connectionId = frame.connectionId
  token : ∀ token, c.poolTokens.find? frame.sequenceNumber = some token → token = frame.token

section Adoption

variable (c : Connection) (sequenceNumber retirePriorTo : Nat) (connectionId : Bytes)

theorem adopt_current : (c.adoptPeerConnectionIdIfRetired sequenceNumber retirePriorTo
    connectionId).driver.connectionIds.currentPeerSequence =
      if retirePriorTo ≤ c.driver.connectionIds.currentPeerSequence ∨ 20 < connectionId.length then
        c.driver.connectionIds.currentPeerSequence
      else sequenceNumber := by
  unfold adoptPeerConnectionIdIfRetired
  split
  · rfl
  · rfl

theorem adopt_inUse : (c.adoptPeerConnectionIdIfRetired sequenceNumber retirePriorTo
    connectionId).driver.connectionIds.peerConnectionId =
      if retirePriorTo ≤ c.driver.connectionIds.currentPeerSequence ∨ 20 < connectionId.length then
        c.driver.connectionIds.peerConnectionId
      else connectionId := by
  unfold adoptPeerConnectionIdIfRetired
  split
  · rfl
  · rfl

theorem adopt_rest :
    let adopted := c.adoptPeerConnectionIdIfRetired sequenceNumber retirePriorTo connectionId
    adopted.pool = c.pool ∧ adopted.poolTokens = c.poolTokens ∧ adopted.spaces = c.spaces ∧
      adopted.poolLimit = c.poolLimit := by
  unfold adoptPeerConnectionIdIfRetired
  split
  · exact ⟨rfl, rfl, rfl, rfl⟩
  · exact ⟨rfl, rfl, rfl, rfl⟩

end Adoption

theorem adopt_takes {kept : Connection} (agrees : c.Agrees frame)
    (current : kept.driver.connectionIds.currentPeerSequence =
      c.driver.connectionIds.currentPeerSequence)
    (inUse : kept.driver.connectionIds.peerConnectionId = c.driver.connectionIds.peerConnectionId)
    (spaces : kept.spaces = (c.retirePeerConnectionIds frame.retirePriorTo).spaces)
    (limit : kept.poolLimit = c.poolLimit)
    (pool : ∀ sequenceNumber, kept.pool.find? sequenceNumber =
      if sequenceNumber = frame.sequenceNumber then some frame.connectionId
      else (c.retirePeerConnectionIds frame.retirePriorTo).pool.find? sequenceNumber)
    (size : kept.pool.entries.length ≤ c.poolLimit ∨
      kept.pool.entries.length ≤ c.pool.entries.length)
    (tokens : kept.poolTokens = (c.retirePeerConnectionIds frame.retirePriorTo).poolTokens.insert
      frame.sequenceNumber frame.token) :
    c.Takes frame (kept.adoptPeerConnectionIdIfRetired frame.sequenceNumber frame.retirePriorTo
      frame.connectionId) := by
  obtain ⟨samePool, sameTokens, sameSpaces, sameLimit⟩ := adopt_rest kept frame.sequenceNumber
    frame.retirePriorTo frame.connectionId
  constructor
  · intro sequenceNumber
    rw [samePool, pool, pool_retire]
  · rw [samePool]
    exact size
  · intro sequenceNumber token found
    rw [sameTokens, tokens, SortedMap.find?_insert] at found
    split at found
    · rename_i own
      exact .inl ⟨own, (Option.some.inj found).symm⟩
    · exact .inr (poolTokens_retire found)
  · intro sequenceNumber
    rw [← queuedRetirements_retire]
    exact retirements_of_spaces (sameSpaces.trans spaces) sequenceNumber
  · rw [adopt_current, current, adoptedSequence]
    simp only [or_iff_left (Nat.not_lt.mpr agrees.short)]
  · rw [adopt_inUse, current, inUse, adoptedId]
    simp only [or_iff_left (Nat.not_lt.mpr agrees.short)]
  · rw [sameLimit, limit]

/-- A frame that agrees is taken, or refused because the pool is full. -/
theorem receiveNewConnectionId_cases (agrees : c.Agrees frame) :
    (((c.retirePeerConnectionIds frame.retirePriorTo).pool.contains frame.sequenceNumber = true ∨
        ¬ (c.retirePeerConnectionIds frame.retirePriorTo).poolFull) ∧
      c.Takes frame (c.receiveNewConnectionId frame)) ∨
    ((c.retirePeerConnectionIds frame.retirePriorTo).pool.contains frame.sequenceNumber = false ∧
      (c.retirePeerConnectionIds frame.retirePriorTo).poolFull ∧
      c.receiveNewConnectionId frame = c.retirePeerConnectionIds frame.retirePriorTo) := by
  have valid :
      ¬ (frame.connectionId.isEmpty = true ∨ frame.sequenceNumber < frame.retirePriorTo) := by
    rintro (empty | late)
    · exact agrees.nonempty (List.isEmpty_iff.mp empty)
    · exact absurd agrees.ordered (Nat.not_le.mpr late)
  unfold receiveNewConnectionId processNewConnectionId
  rw [if_neg valid]
  dsimp only
  cases found : (c.retirePeerConnectionIds frame.retirePriorTo).driver.connectionIds.peerIssued.find?
      frame.sequenceNumber with
  | some known =>
    have held : (c.retirePeerConnectionIds frame.retirePriorTo).pool.contains
        frame.sequenceNumber = true := by
      rw [SortedMap.contains, found]
      rfl
    have old := found
    change (c.retirePeerConnectionIds frame.retirePriorTo).pool.find? _ = _ at old
    rw [pool_retire] at old
    split at old
    · cases old
    · have same := agrees.id known old
      have tokens : ¬ ((c.retirePeerConnectionIds
          frame.retirePriorTo).driver.connectionIds.peerStatelessResetTokens.find?
            frame.sequenceNumber).any (· ≠ frame.token) = true := by
        rw [Option.any_eq_true]
        rintro ⟨token, present, different⟩
        exact of_decide_eq_true different (agrees.token token (poolTokens_retire present))
      dsimp only
      rw [if_neg (by rw [same]; exact fun different => different rfl), if_neg tokens]
      refine .inl ⟨.inl held, ?_⟩
      refine adopt_takes agrees rfl rfl rfl rfl (fun sequenceNumber => ?_)
        (.inr (length_pool_retire c frame.retirePriorTo)) rfl
      split
      · rename_i own
        rw [own, ← same]
        exact found
      · rfl
  | none =>
    have absent : (c.retirePeerConnectionIds frame.retirePriorTo).pool.contains
        frame.sequenceNumber = false := by
      rw [SortedMap.contains, found]
      rfl
    dsimp only
    split
    · rename_i full
      exact .inr ⟨absent, full, rfl⟩
    · rename_i room
      refine .inl ⟨.inr room, ?_⟩
      refine adopt_takes agrees rfl rfl rfl rfl (fun sequenceNumber => ?_) (.inl ?_) rfl
      · exact SortedMap.find?_insert _ _ _ _
      · have size := SortedMap.size_insert
          (c.retirePeerConnectionIds frame.retirePriorTo).pool frame.sequenceNumber
          frame.connectionId
        have smaller := SortedMap.size_filter_le
          (c.retirePeerConnectionIds frame.retirePriorTo).pool
          fun other _ => decide (other ≠ frame.sequenceNumber)
        change ¬ c.poolLimit ≤ (c.retirePeerConnectionIds frame.retirePriorTo).pool.size at room
        change ((c.retirePeerConnectionIds frame.retirePriorTo).pool.insert frame.sequenceNumber
          frame.connectionId).size ≤ c.poolLimit
        change ((c.retirePeerConnectionIds frame.retirePriorTo).pool.erase _).size ≤ _ at smaller
        rw [size]
        exact Nat.succ_le_of_lt (lt_of_le_of_lt smaller (Nat.lt_of_not_le room))

theorem pool_retire_eq (c : Connection) (retirePriorTo : Nat) :
    (c.retirePeerConnectionIds retirePriorTo).pool =
      c.pool.filter fun sequenceNumber _ => decide (retirePriorTo ≤ sequenceNumber) := by
  refine SortedMap.ext_find? fun sequenceNumber => ?_
  rw [pool_retire, SortedMap.find?_filter]
  by_cases below : sequenceNumber < retirePriorTo
  · rw [if_pos below]
    cases c.pool.find? sequenceNumber with
    | none => rfl
    | some connectionId => simp [Option.filter, below]
  · rw [if_neg below]
    cases c.pool.find? sequenceNumber with
    | none => rfl
    | some connectionId => simp [Option.filter, Nat.not_lt.mp below]

theorem pool_retire_of_above (above : ∀ sequenceNumber, c.pool.contains sequenceNumber = true →
      retirePriorTo ≤ sequenceNumber) :
    (c.retirePeerConnectionIds retirePriorTo).pool = c.pool := by
  refine SortedMap.ext_find? fun sequenceNumber => ?_
  rw [pool_retire]
  split
  · rename_i below
    cases found : c.pool.find? sequenceNumber with
    | none => rfl
    | some connectionId =>
      have := above sequenceNumber (by rw [SortedMap.contains, found]; rfl)
      exact absurd below (Nat.not_lt.mpr this)
  · rfl

theorem above_of_poolFull (bounded : c.pool.entries.length ≤ c.poolLimit)
    (full : (c.retirePeerConnectionIds retirePriorTo).poolFull) :
    ∀ sequenceNumber, c.pool.contains sequenceNumber = true → retirePriorTo ≤ sequenceNumber := by
  intro sequenceNumber contained
  obtain ⟨connectionId, found⟩ := Option.isSome_iff_exists.mp contained
  change c.poolLimit ≤ (c.retirePeerConnectionIds retirePriorTo).pool.entries.length at full
  rw [pool_retire_eq] at full
  have all := length_filter_eq_length_iff.mp
    (le_antisymm (length_filter_le _ _) (bounded.trans full))
  exact of_decide_eq_true
    (all (sequenceNumber, connectionId) (SortedMap.find?_eq_some_iff.mp found))

end Connection
end SwStack.Quic
