import SwStack.Ipc.RingQueueCursors

/-! Subscriptions and their cursors. What a subscription has received, with what its dispatch has
yet to hand out, is what its cursor has gone past. -/
namespace SwStack.Ipc.RingQueue

open SwStack.Lib List

variable {layout : Layout} {decodes : Bytes → Bool} {probe : Nat → PidState}
variable {channel after : Channel} {log : List Message} {sub : Subscription}

/-- Messages are numbered from one, and the last of them are in their slots. -/
structure Stored (layout : Layout) (channel : Channel) (log : List Message) : Prop where
  numbered : log.map Message.sequence = List.range' 1 channel.seq
  entries : ∀ message ∈ log, channel.seq < message.sequence + layout.capacity →
    channel.entry layout message.sequence = some message

variable {message : Message}

namespace Stored

theorem sequence_bounds (stored : Stored layout channel log)
    (member : message ∈ log) : 1 ≤ message.sequence ∧ message.sequence ≤ channel.seq := by
  have numbered := mem_map_of_mem (f := Message.sequence) member
  rw [stored.numbered, mem_range'_1] at numbered
  omega

theorem adjusted (stored : Stored layout channel log) (seq : after.seq = channel.seq)
    (slots : after.slots = channel.slots) : Stored layout after log where
  numbered := by rw [stored.numbered, seq]
  entries := by
    intro message member recent
    rw [Channel.entry, slots]
    exact stored.entries message member (seq ▸ recent)

theorem writeSlot (stored : Stored layout channel log) (origin : Nat) {bytes : Bytes}
    (small : bytes.length ≤ layout.maxPayload) :
    Stored layout (channel.writeSlot layout origin bytes)
      (log ++ [{ sequence := channel.seq + 1, origin, bytes }]) where
  numbered := by
    rw [map_append, stored.numbered, map_singleton]
    exact (range'_concat.trans (by rw [Nat.one_mul, Nat.add_comm 1])).symm
  entries := by
    intro message member recent
    change channel.seq + 1 < _ at recent
    rcases mem_append.mp member with earlier | newest
    · have bounds := stored.sequence_bounds earlier
      have distinct : message.sequence % layout.capacity ≠
          (channel.seq + 1) % layout.capacity := by
        intro same
        have gap : channel.seq + 1 - message.sequence < layout.capacity := by omega
        have multiple : (channel.seq + 1 - message.sequence) % layout.capacity = 0 :=
          Nat.sub_mod_eq_zero_of_mod_eq same.symm
        rw [Nat.mod_eq_of_lt gap] at multiple
        omega
      have slot : (channel.writeSlot layout origin bytes).slots
          (message.sequence % layout.capacity) =
            channel.slots (message.sequence % layout.capacity) :=
        Function.update_of_ne distinct _ _
      rw [Channel.entry, slot]
      exact stored.entries message earlier (by omega)
    · have slot : (channel.writeSlot layout origin bytes).slots
          ((channel.seq + 1) % layout.capacity) =
            { seq := channel.seq + 1, origin, data := bytes } :=
        Function.update_self _ _ _
      rw [mem_singleton.mp newest, Channel.entry, slot]
      exact if_neg fun wrong => wrong.elim (fun other => other rfl) (Nat.not_lt_of_le small)

end Stored

variable {readSeq : Nat}

theorem filter_range' (read : readSeq ≤ seq) :
    (List.range' 1 seq).filter (fun sequence => decide (readSeq < sequence)) =
      List.range' (readSeq + 1) (seq - readSeq) := by
  have split : List.range' 1 seq =
      List.range' 1 readSeq ++ List.range' (1 + readSeq) (seq - readSeq) := by
    rw [range'_append_1, Nat.add_sub_cancel' read]
  rw [split, filter_append, filter_eq_nil_iff.mpr, nil_append,
    filter_eq_self.mpr, Nat.add_comm]
  · intro sequence member
    rw [mem_range'_1] at member
    rw [decide_eq_true_eq]
    omega
  · intro sequence member
    rw [mem_range'_1] at member
    rw [decide_eq_true_eq]
    omega

theorem Stored.batch (stored : Stored layout channel log)
    (mode : cursor.mode = .replay) (read : cursor.readSeq ≤ channel.seq)
    (kept : channel.seq ≤ cursor.readSeq + layout.capacity) :
    channel.batch layout cursor =
      log.filter fun message => decide (cursor.readSeq < message.sequence) := by
  have effective : channel.effectiveModeLocked cursor ≠ .latestOnly := by
    rw [Channel.effectiveModeLocked, mode, if_neg DeliveryMode.noConfusion]
    exact DeliveryMode.noConfusion
  have sequences : List.range' (cursor.readSeq + 1) (channel.seq + 1 - (cursor.readSeq + 1)) =
      (log.filter fun message => decide (cursor.readSeq < message.sequence)).map
        Message.sequence := by
    rw [Nat.add_sub_add_right, ← filter_range' read, ← stored.numbered, filter_map]
    rfl
  rw [Channel.batch, if_neg effective, sequences, filterMap_map]
  refine (filterMap_congr fun message member => ?_).trans filterMap_some
  rw [mem_filter, decide_eq_true_eq] at member
  exact stored.entries message member.1 (by omega)

def Phase.pending : Phase → List Message
  | .delivering messages => messages
  | .calling message messages => message :: messages
  | _ => []

namespace Subscription

/-- The messages above the starting cursor. -/
def due (decodes : Bytes → Bool) (log : List Message) (sub : Subscription) : List Message :=
  log.filter fun message => decide (sub.start < message.sequence) && sub.takes decodes message

def dueUpTo (decodes : Bytes → Bool) (log : List Message) (readSeq : Nat) (sub : Subscription) :
    List Message :=
  (sub.due decodes log).filter fun message => decide (message.sequence ≤ readSeq)

/-- What has been handed to the callback or is in the batch. -/
def handed (decodes : Bytes → Bool) (sub : Subscription) : List Message :=
  sub.received ++ sub.phase.pending.filter (sub.takes decodes)

/-- What holds of a subscription and the cursors that carry its token. -/
structure Held (decodes : Bytes → Bool) (channel : Channel) (log : List Message)
    (sub : Subscription) : Prop where
  known : sub.token ≤ channel.nextToken
  owns : sub.gone = false → sub.standing ≠ .stopped →
    ∃ k, (channel.cursors k).active = true ∧ (channel.cursors k).token = sub.token
  left : sub.standing = .stopped → ∀ k, (channel.cursors k).active = true →
    (channel.cursors k).token ≠ sub.token
  agrees : ∀ k, (channel.cursors k).active = true → (channel.cursors k).token = sub.token →
    (channel.cursors k).mode = sub.mode ∧ (channel.cursors k).subPid = sub.pid
  ordered : sub.mode = .replay → sub.handed decodes <+: sub.due decodes log
  /-- Nothing the cursor has gone past is lost, unless the dispatch gave up. -/
  position : sub.mode = .replay → ∀ k, (channel.cursors k).active = true →
    (channel.cursors k).token = sub.token → sub.start ≤ (channel.cursors k).readSeq ∧
      (sub.standing = .active ∨ sub.phase ≠ .idle →
        sub.handed decodes = sub.dueUpTo decodes log (channel.cursors k).readSeq)

theorem due_append (newer : List Message) :
    sub.due decodes log <+: sub.due decodes (log ++ newer) := by
  rw [due, due, filter_append]
  exact prefix_append _ _

theorem dueUpTo_append (later : readSeq < message.sequence) :
    sub.dueUpTo decodes (log ++ [message]) readSeq = sub.dueUpTo decodes log readSeq := by
  rw [dueUpTo, due, filter_append, filter_append, dueUpTo, due]
  refine (congrArg _ (filter_eq_nil_iff.mpr ?_)).trans (append_nil _)
  intro other member
  rw [mem_singleton.mp (mem_of_mem_filter member), decide_eq_true_eq]
  exact Nat.not_le_of_lt later

theorem dueUpTo_of_le (stored : Stored layout channel log)
    (all : channel.seq ≤ readSeq) : sub.dueUpTo decodes log readSeq = sub.due decodes log := by
  rw [dueUpTo, filter_eq_self]
  intro message member
  have bounds := stored.sequence_bounds (mem_of_mem_filter member)
  rw [decide_eq_true_eq]
  exact bounds.2.trans all

end Subscription

theorem filter_le_append_filter_lt
    (ascending : log.Pairwise fun earlier later => earlier.sequence < later.sequence) :
    log.filter (fun message => decide (message.sequence ≤ readSeq)) ++
      log.filter (fun message => decide (readSeq < message.sequence)) = log := by
  induction log with
  | nil => rfl
  | cons message log ih =>
    rw [pairwise_cons] at ascending
    by_cases before : message.sequence ≤ readSeq
    · rw [filter_cons, if_pos (decide_eq_true before), filter_cons,
        if_neg (mt of_decide_eq_true (Nat.not_lt_of_le before)), cons_append, ih ascending.2]
    · have after : readSeq < message.sequence := Nat.lt_of_not_le before
      have empty : log.filter (fun message => decide (message.sequence ≤ readSeq)) = [] := by
        rw [filter_eq_nil_iff]
        intro other member
        have above := ascending.1 other member
        rw [decide_eq_true_eq]
        omega
      have all := ih ascending.2
      rw [empty, nil_append] at all
      rw [filter_cons, if_neg (mt of_decide_eq_true before), empty, nil_append,
        filter_cons, if_pos (decide_eq_true after), all]

theorem Stored.ascending (stored : Stored layout channel log) :
    log.Pairwise fun earlier later => earlier.sequence < later.sequence := by
  have sorted := pairwise_lt_range' (s := 1) (n := channel.seq)
  rw [← stored.numbered, pairwise_map] at sorted
  exact sorted

namespace Subscription

theorem dueUpTo_append_batch (stored : Stored layout channel log) (start : sub.start ≤ readSeq) :
    sub.dueUpTo decodes log readSeq ++
        (log.filter fun message => decide (readSeq < message.sequence)).filter
          (sub.takes decodes) = sub.due decodes log := by
  have newer : (log.filter fun message => decide (readSeq < message.sequence)).filter
      (sub.takes decodes) =
        (sub.due decodes log).filter fun message => decide (readSeq < message.sequence) := by
    rw [due, filter_filter, filter_filter]
    refine filter_congr fun message _ => ?_
    by_cases later : readSeq < message.sequence
    · rw [decide_eq_true later, decide_eq_true (start.trans_lt later), Bool.and_true, Bool.true_and,
        Bool.true_and]
    · rw [decide_eq_false later, Bool.and_false, Bool.false_and]
  rw [newer, dueUpTo]
  exact filter_le_append_filter_lt (stored.ascending.sublist filter_sublist)

theorem held_begin (sound : channel.Sound layout)
    (active : (channel.cursors k).active = true) (native : Nat → Nat → Bool) :
    (begin (channel.cursors k).subPid (channel.cursors k).mode native (channel.cursors k)).Held
      decodes channel log where
  known := sound.known active
  owns _ _ := ⟨k, active, rfl⟩
  left stopped := by cases stopped
  agrees l activeL token := by
    rw [sound.distinct activeL active token]
    exact ⟨rfl, rfl⟩
  ordered _ := nil_prefix
  position _ l activeL token := by
    rw [sound.distinct activeL active token]
    refine ⟨le_rfl, fun _ => (filter_eq_nil_iff.mpr fun message member => ?_).symm⟩
    have above := (mem_filter.mp member).2
    rw [Bool.and_eq_true, decide_eq_true_eq] at above
    rw [decide_eq_true_eq]
    exact Nat.not_le_of_lt above.1

namespace Held

theorem of_agree (held : sub.Held decodes channel log) (grown : channel.nextToken ≤ after.nextToken)
    (agree : ∀ k, ((channel.cursors k).active = true ∧ (channel.cursors k).token = sub.token ∨
      (after.cursors k).active = true ∧ (after.cursors k).token = sub.token) →
        after.cursors k = channel.cursors k) : sub.Held decodes after log where
  known := held.known.trans grown
  owns runs stands := by
    obtain ⟨k, active, token⟩ := held.owns runs stands
    have same := agree k (.inl ⟨active, token⟩)
    exact ⟨k, by rw [same]; exact active, by rw [same]; exact token⟩
  left stopped k active token := by
    have same := agree k (.inr ⟨active, token⟩)
    rw [same] at active token
    exact held.left stopped k active token
  agrees k active token := by
    have same := agree k (.inr ⟨active, token⟩)
    rw [same] at active token ⊢
    exact held.agrees k active token
  ordered := held.ordered
  position replay k active token := by
    have same := agree k (.inr ⟨active, token⟩)
    rw [same] at active token ⊢
    exact held.position replay k active token

/-- A publisher clears no cursor of a process that runs, and moves none that is to replay. -/
theorem adjusted (held : sub.Held decodes channel log) (adjusted : Adjusted probe channel after)
    (honest : probe sub.pid = .dead → sub.gone = true) : sub.Held decodes after log where
  known := by
    rw [adjusted.nextToken]
    exact held.known
  owns runs stands := by
    obtain ⟨k, active, token⟩ := held.owns runs stands
    have alive : probe (channel.cursors k).subPid ≠ .dead := by
      intro dead
      rw [(held.agrees k active token).2] at dead
      rw [honest dead] at runs
      cases runs
    have moved := adjusted.cursor k
    refine ⟨k, ?_⟩
    generalize after.cursors k = later at moved
    cases moved with
    | same => exact ⟨active, token⟩
    | clear _ dead => exact absurd dead alive
    | raise => exact ⟨active, token⟩
  left stopped k active token := by
    obtain ⟨before, sameToken, -⟩ := (adjusted.cursor k).active active
    exact held.left stopped k before (sameToken ▸ token)
  agrees k active token := by
    obtain ⟨before, sameToken, samePid, sameMode, -⟩ := (adjusted.cursor k).active active
    rw [samePid, sameMode]
    exact held.agrees k before (sameToken ▸ token)
  ordered := held.ordered
  position replay k active token := by
    obtain ⟨before, sameToken, -, -, -, -, unmoved⟩ := (adjusted.cursor k).active active
    rw [sameToken] at token
    have follows : (channel.cursors k).mode ≠ .followPublisher := by
      rw [(held.agrees k before token).1, replay]
      exact DeliveryMode.noConfusion
    rw [unmoved follows]
    exact held.position replay k before token

theorem writeSlot (held : sub.Held decodes channel log) (sound : channel.Sound layout)
    (origin : Nat) (bytes : Bytes) :
    sub.Held decodes (channel.writeSlot layout origin bytes)
      (log ++ [{ sequence := channel.seq + 1, origin, bytes }]) where
  known := held.known
  owns := held.owns
  left := held.left
  agrees := held.agrees
  ordered replay := (held.ordered replay).trans (due_append _)
  position replay k active token := by
    obtain ⟨start, position⟩ := held.position replay k active token
    refine ⟨start, fun busy => ?_⟩
    rw [dueUpTo_append (Nat.lt_succ_of_le (sound.read active))]
    exact position busy

end Held
theorem Held.progress (held : sub.Held decodes channel log) {phase : Phase}
    {received : List Message}
    (same : { sub with phase, received }.handed decodes = sub.handed decodes)
    (busy : sub.standing = .active ∨ phase ≠ .idle →
      sub.standing = .active ∨ sub.phase ≠ .idle) :
    { sub with phase, received }.Held decodes channel log where
  known := held.known
  owns := held.owns
  left := held.left
  agrees := held.agrees
  ordered replay := by
    rw [same]
    exact held.ordered replay
  position replay k active token := by
    obtain ⟨start, position⟩ := held.position replay k active token
    exact ⟨start, fun later => same.trans (position (busy later))⟩

theorem Held.giveUp (held : sub.Held decodes channel log) (stopped : sub.standing ≠ .active) :
    { sub with phase := .idle }.Held decodes channel log where
  known := held.known
  owns := held.owns
  left := held.left
  agrees := held.agrees
  ordered replay := by
    refine List.IsPrefix.trans ?_ (held.ordered replay)
    rw [handed, handed]
    exact (append_nil _).symm ▸ prefix_append _ _
  position replay k active token := by
    refine ⟨(held.position replay k active token).1, fun busy => ?_⟩
    rcases busy with still | moving
    · exact absurd still stopped
    · exact absurd rfl moving

theorem handed_calling {messages : List Message} (phase : sub.phase = .calling message messages) :
    { sub with
      phase := .delivering messages
      received := sub.received ++ if sub.takes decodes message then [message] else [] }.handed
        decodes = sub.handed decodes := by
  rw [handed, handed, phase]
  change (sub.received ++ _) ++ messages.filter (sub.takes decodes) =
    sub.received ++ (message :: messages).filter (sub.takes decodes)
  rw [filter_cons, append_assoc]
  split <;> rfl

/-- The batch of a subscription that is to replay ends with the last message. -/
theorem Held.collect (held : sub.Held decodes channel log) (sound : channel.Sound layout)
    (stored : Stored layout channel log) (collecting : sub.phase = .collecting)
    {k : Fin kMaxSubscriberCursors} (active : (channel.cursors k).active = true)
    (token : (channel.cursors k).token = sub.token) :
    { sub with phase := .delivering (channel.batch layout (channel.cursors k)) }.Held decodes
      (channel.setCursor k { channel.cursors k with readSeq := channel.seq }) log := by
  have cursor (l : Fin kMaxSubscriberCursors) :
      ∃ readSeq, (channel.setCursor k { channel.cursors k with readSeq := channel.seq }).cursors l =
        { channel.cursors l with readSeq } := by
    by_cases here : l = k
    · exact ⟨channel.seq, by rw [here, Channel.setCursor_self]⟩
    · exact ⟨_, Channel.setCursor_of_ne here⟩
  have all (replay : sub.mode = .replay) :
      { sub with phase := .delivering (channel.batch layout (channel.cursors k)) }.handed decodes =
        sub.due decodes log := by
    obtain ⟨start, position⟩ := held.position replay k active token
    have before := position (.inr (by rw [collecting]; exact Phase.noConfusion))
    have mode := (held.agrees k active token).1.trans replay
    have replays : channel.Replays k := by
      refine ⟨active, ?_⟩
      rw [Channel.effectiveModeLocked, mode]
      exact if_neg DeliveryMode.noConfusion
    rw [handed, collecting] at before
    rw [handed]
    change sub.received ++ (channel.batch layout (channel.cursors k)).filter (sub.takes decodes) = _
    rw [stored.batch mode (sound.read active) (sound.kept replays),
      ← dueUpTo_append_batch stored start, ← before]
    exact congrArg (· ++ _) (append_nil _).symm
  constructor
  · exact held.known
  · intro runs stands
    obtain ⟨l, activeL, tokenL⟩ := held.owns runs stands
    obtain ⟨readSeq, same⟩ := cursor l
    exact ⟨l, by rw [same]; exact activeL, by rw [same]; exact tokenL⟩
  · intro stopped l activeL tokenL
    exact held.left stopped k active token
  · intro l activeL tokenL
    obtain ⟨readSeq, same⟩ := cursor l
    rw [same] at activeL tokenL ⊢
    exact held.agrees l activeL tokenL
  · intro replay
    rw [all replay]
    exact prefix_rfl
  · intro replay l activeL tokenL
    have here : l = k := by
      obtain ⟨readSeq, same⟩ := cursor l
      rw [same] at activeL tokenL
      exact sound.distinct activeL active (tokenL.trans token.symm)
    rw [here, Channel.setCursor_self]
    refine ⟨(held.position replay k active token).1.trans (sound.read active), fun _ => ?_⟩
    rw [all replay]
    exact (dueUpTo_of_le stored le_rfl).symm

/-- The token, the mode and the like of a subscription stay. -/
structure Same (sub later : Subscription) : Prop where
  pid : later.pid = sub.pid
  token : later.token = sub.token
  mode : later.mode = sub.mode
  native : later.native = sub.native
  standing : later.standing = sub.standing
  gone : later.gone = sub.gone
  start : later.start = sub.start

theorem Same.trans (first : sub.Same middle) (second : middle.Same later) : sub.Same later where
  pid := second.pid.trans first.pid
  token := second.token.trans first.token
  mode := second.mode.trans first.mode
  native := second.native.trans first.native
  standing := second.standing.trans first.standing
  gone := second.gone.trans first.gone
  start := second.start.trans first.start

/-- What a dispatch may change in the channel. -/
structure Moves (token : Nat) (channel after : Channel) : Prop where
  seq : after.seq = channel.seq
  slots : after.slots = channel.slots
  nextToken : after.nextToken = channel.nextToken
  cursors : ∀ k, after.cursors k = channel.cursors k ∨
    (channel.cursors k).token = token ∧
      ((after.cursors k).active = true → (after.cursors k).token = token)

theorem Moves.refl (token : Nat) (channel : Channel) : Moves token channel channel :=
  ⟨rfl, rfl, rfl, fun _ => .inl rfl⟩

/-- Once a cursor is released no other carries its token. -/
theorem releaseCursor_spec (sound : channel.Sound layout) (token : Nat) :
    Moves token channel (channel.releaseCursor token) ∧
    ∀ l, ((channel.releaseCursor token).cursors l).active = true →
      ((channel.releaseCursor token).cursors l).token ≠ token := by
  rw [Channel.releaseCursor]
  split
  · rename_i k found
    obtain ⟨active, same⟩ := Channel.findCursorLocked_some found
    have gone := @Channel.setCursor_self channel k .empty
    constructor
    · refine ⟨rfl, rfl, rfl, fun l => ?_⟩
      by_cases here : l = k
      · refine .inr ⟨here ▸ same, fun never => ?_⟩
        rw [here, gone] at never
        cases never
      · exact .inl (Channel.setCursor_of_ne here)
    · intro l activeL tokenL
      by_cases here : l = k
      · rw [here, gone] at activeL
        cases activeL
      · rw [Channel.setCursor_of_ne here] at activeL tokenL
        exact here (sound.distinct activeL active (tokenL.trans same.symm))
  · rename_i missing
    exact ⟨.refl _ _, Channel.findCursorLocked_none missing⟩

theorem Same.phase (phase : Phase) (received : List Message) :
    sub.Same { sub with phase, received } :=
  ⟨rfl, rfl, rfl, rfl, rfl, rfl, rfl⟩

theorem advance_spec (held : sub.Held decodes channel log) (sound : channel.Sound layout)
    (stored : Stored layout channel log) :
    (sub.advance layout decodes channel).2.Held decodes (sub.advance layout decodes channel).1 log ∧
    (sub.advance layout decodes channel).1.Sound layout ∧
    sub.Same (sub.advance layout decodes channel).2 ∧
    Moves sub.token channel (sub.advance layout decodes channel).1 := by
  have quiet {phase : Phase} {received : List Message}
      (here : { sub with phase, received }.Held decodes channel log) :
      { sub with phase, received }.Held decodes channel log ∧ channel.Sound layout ∧
        sub.Same { sub with phase, received } ∧ Moves sub.token channel channel :=
    ⟨here, sound, .phase phase received, .refl _ _⟩
  -- the phases that hold no message
  have empty (phase : Phase) (absent : phase.pending = sub.phase.pending) :
      { sub with phase }.handed decodes = sub.handed decodes := by
    rw [handed, handed, absent]
    rfl
  unfold advance
  split
  · rename_i idle
    split
    · rename_i active
      exact quiet (held.progress (empty _ (by rw [idle]; rfl)) fun _ => .inl active)
    · exact ⟨held, sound, ⟨rfl, rfl, rfl, rfl, rfl, rfl, rfl⟩, .refl _ _⟩
  · rename_i looping
    split
    · rename_i active
      exact quiet (held.progress (empty _ (by rw [looping]; rfl)) fun _ => .inl active)
    · rename_i stopped
      exact quiet (held.giveUp stopped)
  · rename_i collecting
    have ended := held.progress (empty .idle (by rw [collecting]; rfl))
      fun _ => .inr (by rw [collecting]; exact Phase.noConfusion)
    split
    · exact quiet ended
    · rename_i k found
      obtain ⟨active, token⟩ := Channel.findCursorLocked_some found
      dsimp only
      split
      · exact quiet ended
      · refine ⟨held.collect sound stored collecting active token, sound.collect active,
          .phase _ sub.received, rfl, rfl, rfl, fun l => ?_⟩
        by_cases here : l = k
        · refine .inr ⟨here ▸ token, fun _ => ?_⟩
          rw [here, Channel.setCursor_self]
          exact token
        · exact .inl (Channel.setCursor_of_ne here)
  · rename_i delivering
    exact quiet (held.progress (empty _ (by rw [delivering]; rfl))
      fun _ => .inr (by rw [delivering]; exact Phase.noConfusion))
  · rename_i message messages delivering
    split
    · rename_i active
      exact quiet (held.progress (empty _ (by rw [delivering]; rfl)) fun _ => .inl active)
    · rename_i stopped
      exact quiet (held.giveUp stopped)
  · rename_i message messages calling
    exact quiet (held.progress (handed_calling calling)
      fun _ => .inr (by rw [calling]; exact Phase.noConfusion))

end Subscription
end SwStack.Ipc.RingQueue
