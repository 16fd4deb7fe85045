import SwStack.Ipc.RingQueue

/-! Cursors of a channel. What a critical section changes in them is one relation, and so is what
may be told of them between critical sections. -/
namespace SwStack.Ipc.RingQueue

open SwStack.Lib List

variable {layout : Layout} {probe : Nat → PidState} {channel after : Channel}

theorem countP_finRange (p : Fin n → Bool) :
    (List.finRange n).countP p = (Finset.univ.filter fun k => p k = true).card := by
  rw [Finset.card_def, Finset.filter_val, Finset.val_univ_fin, ← Multiset.countP_eq_card_filter,
    Multiset.coe_countP]
  simp only [Bool.decide_eq_true]

namespace Channel

theorem findCursorLocked_some {token : Nat} {k : Fin kMaxSubscriberCursors}
    (found : channel.findCursorLocked token = some k) :
    (channel.cursors k).active = true ∧ (channel.cursors k).token = token := by
  have matched := find?_some found
  rw [Bool.and_eq_true, beq_iff_eq] at matched
  exact matched

theorem findCursorLocked_none (missing : channel.findCursorLocked token = none)
    (k : Fin kMaxSubscriberCursors) (active : (channel.cursors k).active = true) :
    (channel.cursors k).token ≠ token := by
  intro same
  have unmatched := find?_eq_none.mp missing k (mem_finRange k)
  rw [active, same, Bool.true_and, beq_self_eq_true] at unmatched
  exact unmatched rfl

/-- A cursor that may hold back a publisher. -/
def Replays (channel : Channel) (k : Fin kMaxSubscriberCursors) : Prop :=
  (channel.cursors k).active = true ∧
    channel.effectiveModeLocked (channel.cursors k) = .replay

theorem foldl_min_le (p : α → Bool) (readSeq : α → Nat) (cursors : List α) (seq : Nat) :
    let minimum := cursors.foldl
      (fun minimum cursor => if p cursor then min minimum (readSeq cursor) else minimum) seq
    minimum ≤ seq ∧ ∀ cursor ∈ cursors, p cursor = true → minimum ≤ readSeq cursor := by
  induction cursors generalizing seq with
  | nil => exact ⟨le_rfl, fun cursor member => absurd member not_mem_nil⟩
  | cons first cursors ih =>
    rw [foldl_cons]
    by_cases counted : p first = true
    · rw [if_pos counted]
      obtain ⟨low, each⟩ := ih (min seq (readSeq first))
      refine ⟨low.trans (min_le_left _ _), fun cursor member here => ?_⟩
      rcases mem_cons.mp member with rfl | later
      · exact low.trans (min_le_right _ _)
      · exact each cursor later here
    · rw [if_neg counted]
      obtain ⟨low, each⟩ := ih seq
      refine ⟨low, fun cursor member here => ?_⟩
      rcases mem_cons.mp member with rfl | later
      · exact absurd here counted
      · exact each cursor later here

theorem minReadSeqLocked_le (replays : channel.Replays k) :
    channel.minReadSeqLocked ≤ (channel.cursors k).readSeq := by
  refine (foldl_min_le _ (fun k => (channel.cursors k).readSeq) _ _).2 k (mem_finRange k) ?_
  rw [Bool.and_eq_true, beq_iff_eq]
  exact replays

theorem lt_of_not_blocked (free : ¬channel.Blocked layout)
    (replays : channel.Replays k) : channel.seq < (channel.cursors k).readSeq + layout.capacity := by
  have low := minReadSeqLocked_le replays
  rw [Blocked] at free
  omega

end Channel

def Channel.activeCount (channel : Channel) : Nat :=
  (Finset.univ.filter fun k => (channel.cursors k).active = true).card

structure Channel.Sound (layout : Layout) (channel : Channel) : Prop where
  counted : channel.cursorCount = channel.activeCount
  distinct : ∀ {k l}, (channel.cursors k).active = true → (channel.cursors l).active = true →
    (channel.cursors k).token = (channel.cursors l).token → k = l
  known : ∀ {k}, (channel.cursors k).active = true →
    (channel.cursors k).token ≤ channel.nextToken
  read : ∀ {k}, (channel.cursors k).active = true → (channel.cursors k).readSeq ≤ channel.seq
  /-- Whatever is still to be replayed is among the last entries. -/
  kept : ∀ {k}, channel.Replays k →
    channel.seq ≤ (channel.cursors k).readSeq + layout.capacity

/-- The cursor is cleared because its process is dead, or moved if it follows the publisher. -/
inductive Adjusts (probe : Nat → PidState) (seq : Nat) (cursor : SubscriberCursor) :
    SubscriberCursor → Prop where
  | same : Adjusts probe seq cursor cursor
  | clear : cursor.active = true → probe cursor.subPid = .dead → Adjusts probe seq cursor .empty
  | raise (readSeq : Nat) : cursor.mode = .followPublisher → cursor.readSeq ≤ readSeq →
      (cursor.readSeq ≤ seq → readSeq ≤ seq) → Adjusts probe seq cursor { cursor with readSeq }

variable {cursor : SubscriberCursor}

theorem Adjusts.active {seq : Nat} {later : SubscriberCursor}
    (adjusts : Adjusts probe seq cursor later) (active : later.active = true) :
    cursor.active = true ∧ later.token = cursor.token ∧ later.subPid = cursor.subPid ∧
      later.mode = cursor.mode ∧ cursor.readSeq ≤ later.readSeq ∧
      (cursor.readSeq ≤ seq → later.readSeq ≤ seq) ∧
      (cursor.mode ≠ .followPublisher → later.readSeq = cursor.readSeq) := by
  cases adjusts with
  | same => exact ⟨active, rfl, rfl, rfl, le_rfl, id, fun _ => rfl⟩
  | clear => cases active
  | raise readSeq follows above within =>
    exact ⟨active, rfl, rfl, rfl, above, within, fun other => absurd follows other⟩

/-- What a publication may change before it is accepted or refused. -/
structure Adjusted (probe : Nat → PidState) (channel after : Channel) : Prop where
  seq : after.seq = channel.seq
  slots : after.slots = channel.slots
  nextToken : after.nextToken = channel.nextToken
  cursor : ∀ k, Adjusts probe channel.seq (channel.cursors k) (after.cursors k)
  counted : channel.cursorCount = channel.activeCount → after.cursorCount = after.activeCount

namespace Adjusted

theorem mode (adjusted : Adjusted probe channel after) (mode : DeliveryMode) :
    Adjusted probe channel { after with defaultMode := mode } :=
  ⟨adjusted.seq, adjusted.slots, adjusted.nextToken, adjusted.cursor, adjusted.counted⟩

theorem sound (adjusted : Adjusted probe channel after) (sound : channel.Sound layout)
    (kept : ∀ {k}, after.Replays k →
      after.seq ≤ (after.cursors k).readSeq + layout.capacity) : after.Sound layout where
  counted := adjusted.counted sound.counted
  distinct {k l} first second same := by
    obtain ⟨activeK, tokenK, -⟩ := (adjusted.cursor k).active first
    obtain ⟨activeL, tokenL, -⟩ := (adjusted.cursor l).active second
    exact sound.distinct activeK activeL (by rw [← tokenK, ← tokenL, same])
  known {k} active := by
    obtain ⟨before, token, -⟩ := (adjusted.cursor k).active active
    rw [token, adjusted.nextToken]
    exact sound.known before
  read {k} active := by
    obtain ⟨before, -, -, -, -, within, -⟩ := (adjusted.cursor k).active active
    rw [adjusted.seq]
    exact within (sound.read before)
  kept := kept

theorem kept (adjusted : Adjusted probe channel after) (sound : channel.Sound layout)
    (mode : after.defaultMode = channel.defaultMode) {k : Fin kMaxSubscriberCursors}
    (replays : after.Replays k) : after.seq ≤ (after.cursors k).readSeq + layout.capacity := by
  obtain ⟨before, -, -, sameMode, above, -⟩ := (adjusted.cursor k).active replays.1
  have effective : channel.Replays k := by
    refine ⟨before, ?_⟩
    have now := replays.2
    rw [Channel.effectiveModeLocked, sameMode, mode] at now
    exact now
  have kept := sound.kept effective
  rw [adjusted.seq]
  omega

end Adjusted

variable {mode : DeliveryMode}

namespace Channel

theorem clearDeadCursorsLocked_cursors (k : Fin kMaxSubscriberCursors) :
    ((channel.clearDeadCursorsLocked probe).cursors k = channel.cursors k ∧
      ((channel.cursors k).active = true → probe (channel.cursors k).subPid ≠ .dead)) ∨
    ((channel.clearDeadCursorsLocked probe).cursors k = .empty ∧
      (channel.cursors k).active = true ∧ probe (channel.cursors k).subPid = .dead) := by
  by_cases dead : ((channel.cursors k).active && probe (channel.cursors k).subPid == .dead) = true
  · refine .inr ⟨if_pos dead, ?_⟩
    rw [Bool.and_eq_true, beq_iff_eq] at dead
    exact dead
  · refine .inl ⟨if_neg dead, fun active found => dead ?_⟩
    rw [active, found]
    rfl

theorem activeCount_clearDeadCursorsLocked :
    (channel.clearDeadCursorsLocked probe).activeCount = channel.activeCount -
      (Finset.univ.filter fun k => ((channel.cursors k).active &&
        probe (channel.cursors k).subPid == .dead) = true).card := by
  have among : (Finset.univ.filter fun k => ((channel.cursors k).active &&
      probe (channel.cursors k).subPid == .dead) = true) ⊆
        Finset.univ.filter fun k => (channel.cursors k).active = true := by
    intro k dead
    rw [Finset.mem_filter, Bool.and_eq_true] at dead
    exact Finset.mem_filter.mpr ⟨dead.1, dead.2.1⟩
  rw [activeCount, activeCount, ← Finset.card_sdiff_of_subset among]
  congr 1
  ext k
  rw [Finset.mem_filter, Finset.mem_sdiff, Finset.mem_filter, Finset.mem_filter, Bool.and_eq_true,
    beq_iff_eq]
  rcases @clearDeadCursorsLocked_cursors probe channel k with
    ⟨same, alive⟩ | ⟨cleared, active, dead⟩
  · rw [same]
    constructor
    · intro here
      exact ⟨here, fun gone => alive here.2 gone.2.2⟩
    · intro here
      exact here.1
  · rw [cleared]
    constructor
    · intro here
      cases here.2
    · intro here
      exact absurd ⟨Finset.mem_univ k, active, dead⟩ here.2

theorem adjusted_clearDeadCursorsLocked (probe : Nat → PidState) (channel : Channel) :
    Adjusted probe channel (channel.clearDeadCursorsLocked probe) where
  seq := rfl
  slots := rfl
  nextToken := rfl
  cursor k := by
    rcases @clearDeadCursorsLocked_cursors probe channel k with
      ⟨same, -⟩ | ⟨cleared, active, dead⟩
    · rw [same]
      exact .same
    · rw [cleared]
      exact .clear active dead
  counted same := by
    rw [activeCount_clearDeadCursorsLocked, ← same, ← countP_finRange]
    rfl

/-- A publication that turns a channel to replay. -/
def TurnsToReplay (channel : Channel) (mode : DeliveryMode) : Prop :=
  mode = .replay ∧ channel.defaultMode ≠ .replay

/-- A cursor that follows the publisher, moved to the oldest entry left. -/
def raised (layout : Layout) (channel : Channel) (cursor : SubscriberCursor) : SubscriberCursor :=
  if cursor.active && cursor.mode == .followPublisher then
    { cursor with readSeq := max cursor.readSeq (channel.seq - layout.capacity) }
  else cursor

theorem switchMode_of_turns (turns : channel.TurnsToReplay mode) : channel.switchMode layout mode =
      { channel with
        defaultMode := .replay
        cursors := fun k => channel.raised layout (channel.cursors k) } := by
  obtain ⟨rfl, other⟩ := turns
  exact if_pos ⟨other, rfl⟩

theorem switchMode_of_not_turns (stays : ¬channel.TurnsToReplay mode) :
    channel.switchMode layout mode =
      { channel with
        defaultMode := if mode ≠ .followPublisher then mode else channel.defaultMode } := by
  rw [switchMode]
  by_cases follows : mode = .followPublisher
  · rw [if_neg (not_not.mpr follows), if_neg (not_not.mpr follows)]
    exact if_neg fun both => both.1 rfl
  · rw [if_pos follows, if_pos follows]
    refine if_neg fun both => stays ⟨both.2, fun already => both.1 ?_⟩
    rw [already, both.2]

theorem adjusts_raised (cursor : SubscriberCursor) :
    Adjusts probe channel.seq cursor (channel.raised layout cursor) := by
  rw [raised]
  split
  · rename_i follows
    rw [Bool.and_eq_true, beq_iff_eq] at follows
    refine .raise _ follows.2 (le_max_left _ _) fun read => max_le read (Nat.sub_le _ _)
  · exact .same

theorem active_raised (cursor : SubscriberCursor) :
    (channel.raised layout cursor).active = cursor.active := by
  rw [raised]
  split <;> rfl

theorem adjusted_switchMode (layout : Layout) (probe : Nat → PidState) (mode : DeliveryMode)
    (channel : Channel) : Adjusted probe channel (channel.switchMode layout mode) := by
  by_cases turns : channel.TurnsToReplay mode
  · rw [switchMode_of_turns turns]
    refine ⟨rfl, rfl, rfl, fun k => adjusts_raised _, fun same => ?_⟩
    refine same.trans (congrArg Finset.card (Finset.filter_congr fun k _ => ?_))
    rw [active_raised]
  · rw [switchMode_of_not_turns turns]
    exact ⟨rfl, rfl, rfl, fun k => .same, id⟩

end Channel

theorem Adjusts.trans {seq : Nat} {first second third : SubscriberCursor}
    (earlier : Adjusts probe seq first second) (later : Adjusts probe seq second third) :
    Adjusts probe seq first third := by
  cases earlier with
  | same => exact later
  | clear active dead =>
    cases later with
    | same => exact .clear active dead
    | clear => exact .clear active dead
    | raise readSeq follows => cases follows
  | raise readSeq follows above within =>
    cases later with
    | same => exact .raise readSeq follows above within
    | clear active dead => exact .clear active dead
    | raise later follows' above' within' =>
      exact .raise later follows (above.trans above') fun read => within' (within read)

theorem Adjusted.trans {middle : Channel} (earlier : Adjusted probe channel middle)
    (later : Adjusted probe middle after) : Adjusted probe channel after where
  seq := later.seq.trans earlier.seq
  slots := later.slots.trans earlier.slots
  nextToken := later.nextToken.trans earlier.nextToken
  cursor k := (earlier.cursor k).trans (earlier.seq ▸ later.cursor k)
  counted := later.counted ∘ earlier.counted

namespace Channel

/-- The channel when it is decided whether the entry may be written. -/
def prepared (layout : Layout) (probe : Nat → PidState) (mode : DeliveryMode) (channel : Channel) :
    Channel :=
  let channel := channel.switchMode layout mode
  if channel.Blocked layout then channel.clearDeadCursorsLocked probe else channel

theorem adjusted_prepared (layout : Layout) (probe : Nat → PidState) (mode : DeliveryMode)
    (channel : Channel) : Adjusted probe channel (channel.prepared layout probe mode) := by
  have switched := adjusted_switchMode layout probe mode channel
  unfold prepared
  dsimp only
  split
  · exact switched.trans (adjusted_clearDeadCursorsLocked probe _)
  · exact switched

/-- A publication is refused, and gives the mode back, or its entry is written. -/
theorem publishBytes_cases (layout : Layout) (probe : Nat → PidState) (origin : Nat) (bytes : Bytes)
    (mode : DeliveryMode) (channel : Channel) :
    (channel.publishBytes layout probe origin bytes mode = (channel, none) ∧
      ((mode ≠ .replay ∧ mode ≠ .latestOnly ∧ mode ≠ .followPublisher) ∨
        layout.maxPayload < bytes.length)) ∨
    (channel.publishBytes layout probe origin bytes mode =
        ({ channel.prepared layout probe mode with defaultMode := channel.defaultMode }, none) ∧
      ¬(mode ≠ .replay ∧ mode ≠ .latestOnly ∧ mode ≠ .followPublisher) ∧
      bytes.length ≤ layout.maxPayload) ∨
    (channel.publishBytes layout probe origin bytes mode =
        ((channel.prepared layout probe mode).writeSlot layout origin bytes,
          some (channel.seq + 1)) ∧
      bytes.length ≤ layout.maxPayload ∧ ¬(channel.prepared layout probe mode).Blocked layout) := by
  by_cases known : mode ≠ .replay ∧ mode ≠ .latestOnly ∧ mode ≠ .followPublisher
  · exact .inl ⟨if_pos known, .inl known⟩
  by_cases large : layout.maxPayload < bytes.length
  · exact .inl ⟨(if_neg known).trans (if_pos large), .inr large⟩
  have opened : channel.publishBytes layout probe origin bytes mode =
      if (channel.prepared layout probe mode).Blocked layout then
        ({ channel.prepared layout probe mode with defaultMode := channel.defaultMode }, none)
      else if (channel.prepared layout probe mode).seq = uint64Max then
        ({ channel.prepared layout probe mode with defaultMode := channel.defaultMode }, none)
      else ((channel.prepared layout probe mode).writeSlot layout origin bytes,
        some ((channel.prepared layout probe mode).seq + 1)) :=
    (if_neg known).trans (if_neg large)
  have small := Nat.le_of_not_lt large
  by_cases blocked : (channel.prepared layout probe mode).Blocked layout
  · exact .inr (.inl ⟨opened.trans (if_pos blocked), known, small⟩)
  rw [if_neg blocked] at opened
  by_cases ended : (channel.prepared layout probe mode).seq = uint64Max
  · exact .inr (.inl ⟨opened.trans (if_pos ended), known, small⟩)
  · rw [if_neg ended, (adjusted_prepared layout probe mode channel).seq] at opened
    exact .inr (.inr ⟨opened, small, blocked⟩)

theorem publishBytes_refused
    (refused : (channel.publishBytes layout probe origin bytes mode).2 = none) :
    (channel.publishBytes layout probe origin bytes mode).1.seq = channel.seq ∧
    (channel.publishBytes layout probe origin bytes mode).1.slots = channel.slots ∧
    (channel.publishBytes layout probe origin bytes mode).1.defaultMode = channel.defaultMode := by
  rcases publishBytes_cases layout probe origin bytes mode channel with
    ⟨same, -⟩ | ⟨back, -⟩ | ⟨written, -⟩
  · rw [same]
    exact ⟨rfl, rfl, rfl⟩
  · have adjusted := adjusted_prepared layout probe mode channel
    rw [back]
    exact ⟨adjusted.seq, adjusted.slots, rfl⟩
  · rw [written] at refused
    cases refused

/-- A publication that, should it be refused, leaves the cursors alone: it is refused at once, or
it neither moves a follower nor clears a cursor of the dead. -/
def Quiet (layout : Layout) (probe : Nat → PidState) (bytes : Bytes) (mode : DeliveryMode)
    (channel : Channel) : Prop :=
  (mode ≠ .replay ∧ mode ≠ .latestOnly ∧ mode ≠ .followPublisher) ∨
  layout.maxPayload < bytes.length ∨
  (channel.TurnsToReplay mode → ∀ k, (channel.cursors k).active = true →
    (channel.cursors k).mode = .followPublisher →
      channel.seq - layout.capacity ≤ (channel.cursors k).readSeq) ∧
  ((channel.switchMode layout mode).Blocked layout → ∀ k, (channel.cursors k).active = true →
    probe (channel.cursors k).subPid ≠ .dead)

theorem raised_eq_self_iff (cursor : SubscriberCursor) :
    channel.raised layout cursor = cursor ↔ (cursor.active = true → cursor.mode = .followPublisher →
      channel.seq - layout.capacity ≤ cursor.readSeq) := by
  by_cases follows : (cursor.active && cursor.mode == .followPublisher) = true
  · rw [raised, if_pos follows]
    rw [Bool.and_eq_true, beq_iff_eq] at follows
    constructor
    · intro same _ _
      exact max_eq_left_iff.mp (congrArg SubscriberCursor.readSeq same)
    · intro within
      rw [max_eq_left (within follows.1 follows.2)]
  · rw [raised, if_neg follows]
    refine ⟨fun _ active mode => absurd ?_ follows, fun _ => rfl⟩
    rw [active, mode]
    rfl

theorem switchMode_cursors_iff (k : Fin kMaxSubscriberCursors) :
    (channel.switchMode layout mode).cursors k = channel.cursors k ↔
      (channel.TurnsToReplay mode → (channel.cursors k).active = true →
        (channel.cursors k).mode = .followPublisher →
          channel.seq - layout.capacity ≤ (channel.cursors k).readSeq) := by
  by_cases turns : channel.TurnsToReplay mode
  · rw [switchMode_of_turns turns]
    exact (raised_eq_self_iff _).trans ⟨fun here _ => here, fun here => here turns⟩
  · rw [switchMode_of_not_turns turns]
    exact ⟨fun _ here => absurd here turns, fun _ => rfl⟩

theorem clearDeadCursorsLocked_eq_self_iff : channel.clearDeadCursorsLocked probe = channel ↔
    ∀ k, (channel.cursors k).active = true → probe (channel.cursors k).subPid ≠ .dead := by
  constructor
  · intro same k active
    rcases @clearDeadCursorsLocked_cursors probe channel k with
      ⟨-, alive⟩ | ⟨cleared, -, -⟩
    · exact alive active
    · rw [same] at cleared
      rw [cleared] at active
      cases active
  · intro alive
    have absent : ∀ k, ((channel.cursors k).active &&
        probe (channel.cursors k).subPid == .dead) = false := by
      intro k
      rw [Bool.and_eq_false_imp]
      intro active
      exact beq_eq_false_iff_ne.mpr (alive k active)
    simp only [clearDeadCursorsLocked, absent, Bool.false_eq_true, if_false, countP_false]
    rfl

theorem switchMode_eq_iff (mode : DeliveryMode) :
    { channel.switchMode layout mode with defaultMode := channel.defaultMode } = channel ↔
      (channel.TurnsToReplay mode → ∀ k, (channel.cursors k).active = true →
        (channel.cursors k).mode = .followPublisher →
          channel.seq - layout.capacity ≤ (channel.cursors k).readSeq) := by
  by_cases turns : channel.TurnsToReplay mode
  · rw [switchMode_of_turns turns]
    constructor
    · intro same _ k
      exact (raised_eq_self_iff _).mp (congrFun (congrArg Channel.cursors same) k)
    · intro within
      have cursors : (fun k => channel.raised layout (channel.cursors k)) = channel.cursors :=
        funext fun k => (raised_eq_self_iff _).mpr (within turns k)
      rw [cursors]
  · rw [switchMode_of_not_turns turns]
    exact ⟨fun _ here => absurd here turns, fun _ => rfl⟩

/-- A refused publication leaves all as it was exactly when it is quiet. -/
theorem refused_eq_iff (layout : Layout) (probe : Nat → PidState) (mode : DeliveryMode)
    (channel : Channel) :
    { channel.prepared layout probe mode with defaultMode := channel.defaultMode } = channel ↔
      (channel.TurnsToReplay mode → ∀ k, (channel.cursors k).active = true →
        (channel.cursors k).mode = .followPublisher →
          channel.seq - layout.capacity ≤ (channel.cursors k).readSeq) ∧
      ((channel.switchMode layout mode).Blocked layout → ∀ k, (channel.cursors k).active = true →
        probe (channel.cursors k).subPid ≠ .dead) := by
  unfold prepared
  dsimp only
  by_cases blocked : (channel.switchMode layout mode).Blocked layout
  · rw [if_pos blocked]
    constructor
    · intro same
      have kept : ∀ k, (channel.cursors k).active = true →
          (channel.switchMode layout mode).cursors k = channel.cursors k ∧
          probe (channel.cursors k).subPid ≠ .dead := by
        intro k active
        have here : ((channel.switchMode layout mode).clearDeadCursorsLocked probe).cursors k =
            channel.cursors k := congrFun (congrArg Channel.cursors same) k
        rcases @clearDeadCursorsLocked_cursors probe
          (channel.switchMode layout mode) k with ⟨unchanged, alive⟩ | ⟨cleared, -, -⟩
        · have switched := unchanged.symm.trans here
          rw [switched] at alive
          exact ⟨switched, alive active⟩
        · rw [cleared] at here
          rw [← here] at active
          cases active
      exact ⟨fun turns k active => (switchMode_cursors_iff k).mp (kept k active).1 turns active,
        fun _ k active => (kept k active).2⟩
    · rintro ⟨within, alive⟩
      have switched := (switchMode_eq_iff mode).mpr within
      have cursors : (channel.switchMode layout mode).cursors = channel.cursors :=
        funext fun k => (switchMode_cursors_iff k).mpr fun turns => within turns k
      rw [clearDeadCursorsLocked_eq_self_iff.mpr (by rw [cursors]; exact alive blocked)]
      exact switched
  · rw [if_neg blocked]
    constructor
    · intro same
      exact ⟨(switchMode_eq_iff mode).mp same, fun here => absurd here blocked⟩
    · intro quiet
      exact (switchMode_eq_iff mode).mpr quiet.1

theorem publishBytes_eq_self_iff
    (refused : (channel.publishBytes layout probe origin bytes mode).2 = none) :
    (channel.publishBytes layout probe origin bytes mode).1 = channel ↔
      channel.Quiet layout probe bytes mode := by
  rcases publishBytes_cases layout probe origin bytes mode channel with
    ⟨same, early⟩ | ⟨back, known, small⟩ | ⟨written, -⟩
  · rw [same]
    exact ⟨fun _ => early.imp_right .inl, fun _ => rfl⟩
  · rw [back, refused_eq_iff]
    constructor
    · intro quiet
      exact .inr (.inr quiet)
    · rintro (unknown | large | quiet)
      · exact absurd unknown known
      · exact absurd small (Nat.not_le_of_lt large)
      · exact quiet
  · rw [written] at refused
    cases refused

theorem setCursor_of_ne {k l : Fin kMaxSubscriberCursors}
    (other : l ≠ k) : (channel.setCursor k cursor).cursors l = channel.cursors l :=
  Function.update_of_ne other _ _

theorem setCursor_self (k : Fin kMaxSubscriberCursors) (cursor : SubscriberCursor) :
    (channel.setCursor k cursor).cursors k = cursor :=
  Function.update_self _ _ _

theorem activeCount_setCursor_of_active (same : cursor.active = (channel.cursors k).active) :
    (channel.setCursor k cursor).activeCount = channel.activeCount := by
  refine congrArg Finset.card (Finset.filter_congr fun l _ => ?_)
  by_cases here : l = k
  · rw [here, setCursor_self, same]
  · rw [setCursor_of_ne here]

theorem activeCount_setCursor_empty {k : Fin kMaxSubscriberCursors}
    (active : (channel.cursors k).active = true) :
    (channel.setCursor k .empty).activeCount = channel.activeCount - 1 := by
  rw [activeCount, activeCount, ← Finset.card_erase_of_mem
    (Finset.mem_filter.mpr ⟨Finset.mem_univ k, active⟩)]
  congr 1
  ext l
  rw [Finset.mem_filter, Finset.mem_erase, Finset.mem_filter]
  by_cases here : l = k
  · rw [here, setCursor_self]
    constructor
    · intro empty
      cases empty.2
    · intro other
      exact absurd rfl other.1
  · rw [setCursor_of_ne here]
    exact ⟨fun member => ⟨here, member⟩, fun member => member.2⟩

theorem activeCount_setCursor_new
    (free : (channel.cursors k).active = false) (active : cursor.active = true) :
    (channel.setCursor k cursor).activeCount = channel.activeCount + 1 := by
  have absent : k ∉ Finset.univ.filter fun l => (channel.cursors l).active = true := by
    rw [Finset.mem_filter, free]
    exact fun member => Bool.false_ne_true member.2
  rw [activeCount, activeCount, ← Finset.card_insert_of_notMem absent]
  congr 1
  ext l
  rw [Finset.mem_filter, Finset.mem_insert, Finset.mem_filter]
  by_cases here : l = k
  · rw [here, setCursor_self]
    exact ⟨fun _ => .inl rfl, fun _ => ⟨Finset.mem_univ k, active⟩⟩
  · rw [setCursor_of_ne here]
    exact ⟨.inr, fun member => member.resolve_left here⟩

namespace Sound

theorem findCursorLocked (sound : channel.Sound layout) (active : (channel.cursors k).active = true)
    (same : (channel.cursors k).token = token) : channel.findCursorLocked token = some k := by
  cases found : channel.findCursorLocked token with
  | none => exact absurd same (findCursorLocked_none found k active)
  | some l =>
    obtain ⟨activeL, tokenL⟩ := findCursorLocked_some found
    rw [sound.distinct activeL active (tokenL.trans same.symm)]

theorem writeSlot (sound : channel.Sound layout) (free : ¬channel.Blocked layout) (origin : Nat)
    (bytes : Bytes) : (channel.writeSlot layout origin bytes).Sound layout where
  counted := sound.counted
  distinct := sound.distinct
  known := sound.known
  read active := (sound.read active).trans (Nat.le_succ _)
  kept replays := lt_of_not_blocked free replays

/-- A cursor set where none was, or in place of one with its token. -/
theorem setCursor (sound : channel.Sound layout) {k : Fin kMaxSubscriberCursors}
    {nextToken cursorCount : Nat}
    (grown : channel.nextToken ≤ nextToken)
    (counted : cursorCount = (channel.setCursor k cursor).activeCount)
    (alone : cursor.active = true → ∀ l, l ≠ k → (channel.cursors l).active = true →
      (channel.cursors l).token ≠ cursor.token)
    (known : cursor.active = true → cursor.token ≤ nextToken)
    (read : cursor.active = true → cursor.readSeq ≤ channel.seq)
    (kept : cursor.active = true → channel.seq ≤ cursor.readSeq + layout.capacity) :
    Channel.Sound layout
      { channel.setCursor k cursor with
        nextToken := nextToken
        cursorCount := cursorCount } where
  counted := counted
  distinct {l m} first second same := by
    change ((channel.setCursor k cursor).cursors l).active = true at first
    change ((channel.setCursor k cursor).cursors m).active = true at second
    change ((channel.setCursor k cursor).cursors l).token =
      ((channel.setCursor k cursor).cursors m).token at same
    by_cases here : l = k
    · by_cases there : m = k
      · rw [here, there]
      · rw [here, setCursor_self] at first same
        rw [setCursor_of_ne there] at second same
        exact absurd same.symm (alone first m there second)
    · by_cases there : m = k
      · rw [there, setCursor_self] at second same
        rw [setCursor_of_ne here] at first same
        exact absurd same (alone second l here first)
      · rw [setCursor_of_ne here] at first same
        rw [setCursor_of_ne there] at second same
        exact sound.distinct first second same
  known {l} active := by
    change ((channel.setCursor k cursor).cursors l).active = true at active
    change ((channel.setCursor k cursor).cursors l).token ≤ nextToken
    by_cases here : l = k
    · rw [here, setCursor_self] at active ⊢
      exact known active
    · rw [setCursor_of_ne here] at active ⊢
      exact (sound.known active).trans grown
  read {l} active := by
    change ((channel.setCursor k cursor).cursors l).active = true at active
    change ((channel.setCursor k cursor).cursors l).readSeq ≤ channel.seq
    by_cases here : l = k
    · rw [here, setCursor_self] at active ⊢
      exact read active
    · rw [setCursor_of_ne here] at active ⊢
      exact sound.read active
  kept {l} replays := by
    change (channel.setCursor k cursor).Replays l at replays
    change channel.seq ≤ ((channel.setCursor k cursor).cursors l).readSeq + layout.capacity
    by_cases here : l = k
    · rw [Replays, here, setCursor_self] at replays
      rw [here, setCursor_self]
      exact kept replays.1
    · rw [Replays, setCursor_of_ne here] at replays
      rw [setCursor_of_ne here]
      exact sound.kept replays

theorem publishBytes (sound : channel.Sound layout) (origin : Nat) (bytes : Bytes)
    (mode : DeliveryMode) : (channel.publishBytes layout probe origin bytes mode).1.Sound layout := by
  have adjusted := adjusted_prepared layout probe mode channel
  rcases publishBytes_cases layout probe origin bytes mode channel with
    ⟨same, -⟩ | ⟨back, -⟩ | ⟨written, -, free⟩
  · rw [same]
    exact sound
  · rw [back]
    have returned := adjusted.mode channel.defaultMode
    exact returned.sound sound (returned.kept sound rfl)
  · rw [written]
    exact (adjusted.sound sound fun replays => (lt_of_not_blocked free replays).le).writeSlot free _ _

theorem releaseCursor (sound : channel.Sound layout) (token : Nat) :
    (channel.releaseCursor token).Sound layout := by
  rw [Channel.releaseCursor]
  split
  · rename_i k found
    have active := (findCursorLocked_some found).1
    refine sound.setCursor le_rfl ?_ ?_ ?_ ?_ ?_
    · rw [activeCount_setCursor_empty active, sound.counted]
    all_goals exact fun never => absurd never Bool.false_ne_true
  · exact sound

theorem create (sound : channel.Sound layout) {k : Fin kMaxSubscriberCursors}
    (free : (channel.cursors k).active = false) (cursor : SubscriberCursor)
    (active : cursor.active = true) (token : cursor.token = channel.nextToken + 1)
    (read : cursor.readSeq ≤ channel.seq)
    (kept : channel.seq ≤ cursor.readSeq + layout.capacity) :
    Channel.Sound layout
      { channel.setCursor k cursor with
        nextToken := channel.nextToken + 1
        cursorCount := channel.cursorCount + 1 } := by
  refine sound.setCursor (Nat.le_succ _) ?_ (fun _ l other here => ?_) (fun _ => token.le)
    (fun _ => read) fun _ => kept
  · rw [activeCount_setCursor_new free active, sound.counted]
  · rw [token]
    exact Nat.ne_of_lt (Nat.lt_succ_of_le (sound.known here))

theorem collect (sound : channel.Sound layout) {k : Fin kMaxSubscriberCursors}
    (active : (channel.cursors k).active = true) :
    (channel.setCursor k { channel.cursors k with readSeq := channel.seq }).Sound layout := by
  have counted : (channel.setCursor k
      { channel.cursors k with readSeq := channel.seq }).activeCount = channel.activeCount :=
    activeCount_setCursor_of_active rfl
  refine sound.setCursor le_rfl (sound.counted.trans counted.symm)
    (fun _ l other here same => other ?_) (fun _ => sound.known active) (fun _ => le_rfl)
    fun _ => Nat.le_add_right _ _
  exact sound.distinct here active same

end Sound

theorem freshToken_of_lt {nextToken : Nat} (left : nextToken + 1 < 2 ^ 64) :
    freshToken nextToken = nextToken + 1 := by
  rw [freshToken, Nat.mod_eq_of_lt left, if_neg (Nat.succ_ne_zero _)]

theorem createCursorLocked_cases (layout : Layout) (probe : Nat → PidState) (pid : Nat)
    (fireInitial : Bool) (mode : DeliveryMode) (channel : Channel) :
    channel.createCursorLocked layout probe pid fireInitial mode =
      (channel.clearDeadCursorsLocked probe, none) ∨
    ∃ k readSeq, ((channel.clearDeadCursorsLocked probe).cursors k).active = false ∧
      readSeq ≤ channel.seq ∧ channel.seq ≤ readSeq + layout.capacity ∧
      channel.createCursorLocked layout probe pid fireInitial mode =
        ({ (channel.clearDeadCursorsLocked probe).setCursor k
              { token := freshToken channel.nextToken
                readSeq
                subPid := pid
                active := true
                mode } with
            nextToken := freshToken channel.nextToken
            cursorCount := (channel.clearDeadCursorsLocked probe).cursorCount + 1 }, some k) := by
  rw [createCursorLocked]
  dsimp only
  split
  · exact .inl rfl
  · rename_i k found
    have free := find?_some found
    rw [Bool.not_eq_true'] at free
    have positive := layout.capacity_pos
    cases fireInitial with
    | false => exact .inr ⟨k, channel.seq, free, le_rfl, Nat.le_add_right _ _, rfl⟩
    | true =>
      refine .inr ⟨k, _, free, Nat.sub_le _ _, ?_, rfl⟩
      split
      · omega
      · omega

end Channel
end SwStack.Ipc.RingQueue
