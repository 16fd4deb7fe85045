import SwStack.Lib.Transition
import SwStack.Ipc.RingQueueDelivery

/-! Runs of the processes that share a channel. Every subscription that is to replay is handed
what was published above its starting cursor, whatever the others do. -/
namespace SwStack.Ipc.RingQueue

open SwStack.Lib List

variable {layout : Layout} {decodes : Bytes → Bool} {probe : Nat → PidState}

namespace System

variable {system next : System}

structure Ok (layout : Layout) (decodes : Bytes → Bool) (system : System) : Prop where
  sound : system.channel.Sound layout
  stored : Stored layout system.channel system.log
  held : ∀ sub ∈ system.subs, sub.Held decodes system.channel system.log
  distinct : (system.subs.map Subscription.token).Nodup

theorem ok_created (layout : Layout) (decodes : Bytes → Bool) (channelMode : DeliveryMode) :
    (created channelMode).Ok layout decodes where
  sound :=
    { counted := by
        refine (Finset.card_eq_zero.mpr (Finset.filter_eq_empty_iff.mpr fun k _ active => ?_)).symm
        cases active
      distinct := fun active => by cases active
      known := fun active => by cases active
      read := fun active => by cases active
      kept := fun replays => by cases replays.1 }
  stored := ⟨rfl, fun message member => absurd member not_mem_nil⟩
  held sub member := absurd member not_mem_nil
  distinct := nodup_nil

theorem Ok.others (ok : system.Ok layout decodes) {index : Nat} {sub later other : Subscription}
    (found : system.subs[index]? = some sub) (member : other ∈ system.subs.set index later) :
    other = later ∨ other ∈ system.subs ∧ other.token ≠ sub.token := by
  obtain ⟨j, get⟩ := mem_iff_getElem?.mp member
  by_cases here : index = j
  · obtain ⟨within, -⟩ := List.getElem?_eq_some_iff.mp found
    rw [← here, getElem?_set_self within] at get
    exact .inl (Option.some.inj get).symm
  · rw [getElem?_set_ne here] at get
    refine .inr ⟨mem_iff_getElem?.mpr ⟨j, get⟩, fun same => here ?_⟩
    obtain ⟨within, -⟩ := List.getElem?_eq_some_iff.mp found
    refine (getElem?_inj (by rw [length_map]; exact within) ok.distinct).mp ?_
    rw [getElem?_map, getElem?_map, found, get, Option.map_some, Option.map_some, same]

theorem tokens_set (found : system.subs[index]? = some sub) (token : later.token = sub.token) :
    (system.subs.set index later).map Subscription.token =
      system.subs.map Subscription.token := by
  obtain ⟨within, get⟩ := List.getElem?_eq_some_iff.mp found
  rw [map_set, token, ← map_set, ← get, set_getElem_self]

theorem Ok.publish (ok : system.Ok layout decodes) (honest : system.Honest probe) (origin : Nat)
    (bytes : Bytes) (mode : DeliveryMode) :
    (system.publish layout probe origin bytes mode).Ok layout decodes := by
  have sound := @Channel.Sound.publishBytes _ probe _ ok.sound origin bytes mode
  have adjusted := Channel.adjusted_prepared layout probe mode system.channel
  unfold System.publish
  rcases Channel.publishBytes_cases layout probe origin bytes mode system.channel with
    ⟨same, -⟩ | ⟨back, -⟩ | ⟨written, small, free⟩
  · rw [same]
    exact ok
  · rw [back] at sound ⊢
    have returned := adjusted.mode system.channel.defaultMode
    exact
      { sound
        stored := ok.stored.adjusted returned.seq returned.slots
        held := fun sub member => (ok.held sub member).adjusted returned (honest sub member)
        distinct := ok.distinct }
  · rw [written] at sound ⊢
    have middle := adjusted.sound ok.sound fun replays =>
      (Channel.lt_of_not_blocked free replays).le
    have stored := (ok.stored.adjusted adjusted.seq adjusted.slots).writeSlot origin small
    rw [adjusted.seq] at stored
    refine ⟨sound, stored, fun sub member => ?_, ok.distinct⟩
    have held := ((ok.held sub member).adjusted adjusted (honest sub member)).writeSlot middle
      origin bytes
    rw [adjusted.seq] at held
    exact held

/-- A new subscription, and the cursor it was given. -/
theorem Ok.begin (ok : system.Ok layout decodes) {after : Channel} (sound : after.Sound layout)
    (seq : after.seq = system.channel.seq) (slots : after.slots = system.channel.slots)
    (nextToken : after.nextToken = system.channel.nextToken + 1) {k : Fin kMaxSubscriberCursors}
    (others : ∀ l, l ≠ k → after.cursors l = system.channel.cursors l)
    (free : (system.channel.cursors k).active = false) (active : (after.cursors k).active = true)
    (token : (after.cursors k).token = system.channel.nextToken + 1) {pid : Nat}
    {mode : DeliveryMode} (samePid : (after.cursors k).subPid = pid)
    (sameMode : (after.cursors k).mode = mode) (native : Nat → Nat → Bool) :
    Ok layout decodes
      { system with
        channel := after
        subs := system.subs ++ [.begin pid mode native (after.cursors k)] } where
  sound := sound
  stored := ok.stored.adjusted seq slots
  held sub member := by
    rcases mem_append.mp member with old | new
    · have held := ok.held sub old
      refine held.of_agree (by rw [nextToken]; exact Nat.le_succ _) fun l carries =>
        others l fun here => ?_
      rw [here] at carries
      rcases carries with ⟨before, -⟩ | ⟨-, mine⟩
      · rw [free] at before
        cases before
      · have fresh : sub.token = system.channel.nextToken + 1 := mine.symm.trans token
        exact absurd (fresh ▸ held.known) (Nat.not_succ_le_self _)
    · rw [mem_singleton.mp new, ← samePid, ← sameMode]
      exact Subscription.held_begin sound active native
  distinct := by
    rw [map_append, nodup_append]
    refine ⟨ok.distinct, nodup_singleton _, fun number old other new same => ?_⟩
    obtain ⟨sub, member, rfl⟩ := mem_map.mp old
    have fresh : sub.token = system.channel.nextToken + 1 :=
      (same.trans (mem_singleton.mp new)).trans token
    exact absurd (fresh ▸ (ok.held sub member).known) (Nat.not_succ_le_self _)

/-- The steps that hand out no token twice. -/
def TokensLeft (system : System) : Action → Prop
  | .subscribe .. => system.channel.nextToken + 1 < 2 ^ 64
  | _ => True

theorem Ok.subscribe (ok : system.Ok layout decodes) (honest : system.Honest probe) (pid : Nat)
    (fireInitial : Bool) (mode : DeliveryMode) (native : Nat → Nat → Bool)
    (left : system.channel.nextToken + 1 < 2 ^ 64) :
    (system.subscribe layout probe pid fireInitial mode native).Ok layout decodes := by
  have adjusted := Channel.adjusted_clearDeadCursorsLocked probe system.channel
  have cleared : Ok layout decodes
      { system with channel := system.channel.clearDeadCursorsLocked probe } :=
    { sound := adjusted.sound ok.sound (adjusted.kept ok.sound rfl)
      stored := ok.stored.adjusted rfl rfl
      held := fun sub member => (ok.held sub member).adjusted adjusted (honest sub member)
      distinct := ok.distinct }
  unfold System.subscribe
  split
  · exact ok
  rcases Channel.createCursorLocked_cases layout probe pid fireInitial mode system.channel with
    full | ⟨k, readSeq, free, read, kept, created⟩
  · rw [full]
    exact cleared
  · rw [created, Channel.freshToken_of_lt left]
    have here := @Channel.setCursor_self (system.channel.clearDeadCursorsLocked probe) k
      { token := system.channel.nextToken + 1, readSeq, subPid := pid, active := true, mode }
    exact cleared.begin (cleared.sound.create free
        { token := system.channel.nextToken + 1, readSeq, subPid := pid, active := true, mode }
        rfl rfl read kept) rfl rfl rfl
      (fun l other => Channel.setCursor_of_ne other) free (congrArg SubscriberCursor.active here)
      (congrArg SubscriberCursor.token here) (congrArg SubscriberCursor.subPid here)
      (congrArg SubscriberCursor.mode here) native

/-- A step of a subscription that keeps the channel, or changes its own cursor. -/
theorem Ok.change (ok : system.Ok layout decodes)
    (found : system.subs[index]? = some sub) {channel : Channel} (token : later.token = sub.token)
    (sound : channel.Sound layout) (moves : Subscription.Moves sub.token system.channel channel)
    (held : later.Held decodes channel system.log) :
    Ok layout decodes { system.setSub index later with channel := channel } where
  sound := sound
  stored := ok.stored.adjusted moves.seq moves.slots
  held other member := by
    rcases ok.others found member with rfl | ⟨old, different⟩
    · exact held
    · refine (ok.held other old).of_agree moves.nextToken.ge fun k carries => ?_
      rcases moves.cursors k with same | ⟨before, after⟩
      · exact same
      · rcases carries with carries | carries
        · exact absurd (carries.2.symm.trans before) different
        · exact absurd (carries.2.symm.trans (after carries.1)) different
  distinct := by
    change ((system.subs.set index later).map Subscription.token).Nodup
    rw [tokens_set found token]
    exact ok.distinct

theorem running_eq_some {index : Nat} {sub : Subscription} (runs : system.running index = some sub) :
    system.subs[index]? = some sub ∧ sub.gone = false := by
  rw [running, Option.filter_eq_some_iff] at runs
  exact ⟨runs.1, Bool.not_eq_true' _ ▸ runs.2⟩

theorem Ok.advance (ok : system.Ok layout decodes) {index : Nat} {sub : Subscription}
    (found : system.subs[index]? = some sub) :
    Ok layout decodes
      { system.setSub index (sub.advance layout decodes system.channel).2 with
        channel := (sub.advance layout decodes system.channel).1 } := by
  obtain ⟨held, sound, same, moves⟩ := Subscription.advance_spec
    (ok.held sub (mem_of_getElem? found)) ok.sound ok.stored
  exact ok.change found same.token sound moves held

theorem Ok.stop (ok : system.Ok layout decodes)
    (found : system.subs[index]? = some sub) (active : sub.standing = .active) :
    (system.setSub index { sub with standing := .stopping }).Ok layout decodes := by
  have held := ok.held sub (mem_of_getElem? found)
  refine ok.change found rfl ok.sound (.refl _ _) ?_
  refine ⟨held.known, fun runs _ => held.owns runs ?_, fun never => ?_, held.agrees, held.ordered,
    fun replay k own token => ?_⟩
  · rw [active]
    exact Standing.noConfusion
  · cases never
  · obtain ⟨start, position⟩ := held.position replay k own token
    exact ⟨start, fun _ => position (.inl active)⟩

theorem Ok.release (ok : system.Ok layout decodes) (found : system.subs[index]? = some sub) :
    Ok layout decodes
      { system.setSub index { sub with standing := .stopped } with
        channel := system.channel.releaseCursor sub.token } := by
  have held := ok.held sub (mem_of_getElem? found)
  obtain ⟨moves, left⟩ := Subscription.releaseCursor_spec ok.sound sub.token
  refine ok.change found rfl (ok.sound.releaseCursor sub.token) moves ?_
  exact
    { known := held.known.trans moves.nextToken.ge
      owns := fun _ stands => absurd rfl stands
      left := fun _ => left
      agrees := fun k active token => absurd token (left k active)
      ordered := held.ordered
      position := fun _ k active token => absurd token (left k active) }

theorem Ok.exit (ok : system.Ok layout decodes) (pid : Nat) :
    Ok layout decodes
      { system with
        subs := system.subs.map fun sub =>
          if sub.pid = pid then { sub with gone := true } else sub } where
  sound := ok.sound
  stored := ok.stored
  held := by
    intro other member
    obtain ⟨sub, old, rfl⟩ := mem_map.mp member
    have held := ok.held sub old
    dsimp only
    split
    · exact
        { known := held.known
          owns := fun runs => absurd runs.symm Bool.false_ne_true
          left := held.left
          agrees := held.agrees
          ordered := held.ordered
          position := held.position }
    · exact held
  distinct := by
    rw [map_map]
    have tokens : (Subscription.token ∘ fun sub : Subscription =>
        if sub.pid = pid then { sub with gone := true } else sub) = Subscription.token := by
      funext sub
      rw [Function.comp_apply]
      split <;> rfl
    rw [tokens]
    exact ok.distinct

theorem Ok.step (ok : system.Ok layout decodes)
    (left : system.TokensLeft action) (stepped : system.step layout decodes action = some next) :
    next.Ok layout decodes := by
  cases action with
  | publish origin bytes mode probe =>
    rw [System.step] at stepped
    split at stepped
    · rename_i honest
      cases stepped
      exact ok.publish honest origin bytes mode
    · cases stepped
  | subscribe pid fireInitial mode native probe =>
    rw [System.step] at stepped
    split at stepped
    · rename_i honest
      cases stepped
      exact ok.subscribe honest pid fireInitial mode native left
    · cases stepped
  | advance index =>
    obtain ⟨sub, runs, rfl⟩ := Option.map_eq_some_iff.mp stepped
    exact ok.advance (running_eq_some runs).1
  | stop index =>
    obtain ⟨sub, runs, rfl⟩ := Option.map_eq_some_iff.mp stepped
    split
    · rename_i active
      exact ok.stop (running_eq_some runs).1 active
    · exact ok
  | release index =>
    obtain ⟨sub, runs, rfl⟩ := Option.map_eq_some_iff.mp stepped
    exact ok.release (running_eq_some (Option.filter_eq_some_iff.mp runs).1).1
  | exit pid =>
    cases stepped
    exact ok.exit pid

/-- The states that the steps of one dispatch reach. -/
def Dispatches (layout : Layout) (decodes : Bytes → Bool) (index : Nat) : System → System → Prop :=
  Reaches (step layout decodes) fun _ action => action = .advance index

/-- Steps of one dispatch that leave the channel alone. -/
structure Turns (layout : Layout) (decodes : Bytes → Bool) (index : Nat) (system : System)
    (sub : Subscription) (later : System) (next : Subscription) : Prop where
  reached : Dispatches layout decodes index system later
  ok : later.Ok layout decodes
  channel : later.channel = system.channel
  log : later.log = system.log
  runs : later.running index = some next
  same : sub.Same next

variable {index : Nat} {sub : Subscription}

theorem Ok.turn (ok : system.Ok layout decodes) (runs : system.running index = some sub) :
    ∃ next, system.step layout decodes (.advance index) = some next ∧ next.Ok layout decodes ∧
      next.channel = (sub.advance layout decodes system.channel).1 ∧ next.log = system.log ∧
      next.running index = some (sub.advance layout decodes system.channel).2 := by
  obtain ⟨found, here⟩ := running_eq_some runs
  have stepped : system.step layout decodes (.advance index) =
      some { system.setSub index (sub.advance layout decodes system.channel).2 with
        channel := (sub.advance layout decodes system.channel).1 } :=
    congrArg (Option.map _) runs
  have left : system.TokensLeft (.advance index) := trivial
  refine ⟨_, stepped, ok.step left stepped, rfl, rfl, ?_⟩
  obtain ⟨-, -, same, -⟩ := Subscription.advance_spec
    (ok.held sub (mem_of_getElem? found)) ok.sound ok.stored
  obtain ⟨within, -⟩ := List.getElem?_eq_some_iff.mp found
  rw [running, Option.filter_eq_some_iff]
  refine ⟨getElem?_set_self within, ?_⟩
  rw [same.gone, here]
  rfl

theorem Turns.refl (ok : system.Ok layout decodes) (runs : system.running index = some sub) :
    Turns layout decodes index system sub system sub :=
  ⟨.refl, ok, rfl, rfl, runs, ⟨rfl, rfl, rfl, rfl, rfl, rfl, rfl⟩⟩

theorem Turns.trans {middle later : System} {between after : Subscription}
    (first : Turns layout decodes index system sub middle between)
    (second : Turns layout decodes index middle between later after) :
    Turns layout decodes index system sub later after where
  reached := Reaches.trans first.reached second.reached
  ok := second.ok
  channel := second.channel.trans first.channel
  log := second.log.trans first.log
  runs := second.runs
  same := first.same.trans second.same

theorem Turns.phase (ok : system.Ok layout decodes) (runs : system.running index = some sub)
    (phase : Phase) (received : List Message)
    (advanced : sub.advance layout decodes system.channel =
      (system.channel, { sub with phase, received })) :
    ∃ later, Turns layout decodes index system sub later { sub with phase, received } := by
  obtain ⟨next, stepped, fine, channel, log, runs⟩ := ok.turn runs
  rw [advanced] at channel runs
  exact ⟨next, .next .refl rfl stepped, fine, channel, log, runs, .phase phase received⟩

theorem turns_delivering (ok : system.Ok layout decodes) (runs : system.running index = some sub)
    (active : sub.standing = .active) {messages : List Message}
    (delivering : sub.phase = .delivering messages) :
    ∃ later next, Turns layout decodes index system sub later next ∧ next.phase = .looping := by
  induction messages generalizing system sub with
  | nil =>
    obtain ⟨later, turns⟩ := Turns.phase ok runs .looping sub.received (by
      rw [Subscription.advance, delivering])
    exact ⟨later, _, turns, rfl⟩
  | cons message messages ih =>
    obtain ⟨middle, first⟩ := Turns.phase ok runs (.calling message messages) sub.received (by
      rw [Subscription.advance, delivering]
      exact if_pos active)
    obtain ⟨after, second⟩ := Turns.phase first.ok first.runs (.delivering messages) _ rfl
    obtain ⟨later, next, third, looping⟩ := ih second.ok second.runs active rfl
    exact ⟨later, next, (first.trans second).trans third, looping⟩

theorem turns_looping (ok : system.Ok layout decodes) (runs : system.running index = some sub)
    (active : sub.standing = .active) (looping : sub.phase = .looping) :
    ∃ later next, Turns layout decodes index system sub later next ∧ next.phase = .collecting := by
  obtain ⟨later, turns⟩ := Turns.phase ok runs .collecting sub.received (by
    rw [Subscription.advance, looping]
    exact if_pos active)
  exact ⟨later, _, turns, rfl⟩

theorem turns_collecting (ok : system.Ok layout decodes) (runs : system.running index = some sub)
    (active : sub.standing = .active) :
    ∃ later next, Turns layout decodes index system sub later next ∧ next.phase = .collecting := by
  cases phase : sub.phase with
  | idle =>
    obtain ⟨middle, first⟩ := Turns.phase ok runs .looping sub.received (by
      rw [Subscription.advance, phase]
      exact if_pos active)
    obtain ⟨later, next, second, collecting⟩ := turns_looping first.ok first.runs active rfl
    exact ⟨later, next, first.trans second, collecting⟩
  | looping => exact turns_looping ok runs active phase
  | collecting => exact ⟨system, sub, .refl ok runs, phase⟩
  | delivering messages =>
    obtain ⟨middle, between, first, looping⟩ := turns_delivering ok runs active phase
    obtain ⟨later, next, second, collecting⟩ := turns_looping first.ok first.runs
      (first.same.standing.trans active) looping
    exact ⟨later, next, first.trans second, collecting⟩
  | calling message messages =>
    obtain ⟨before, start⟩ := Turns.phase ok runs (.delivering messages) _ (by
      rw [Subscription.advance, phase])
    obtain ⟨middle, between, first, looping⟩ := turns_delivering start.ok start.runs active rfl
    obtain ⟨later, next, second, collecting⟩ := turns_looping first.ok first.runs
      (first.same.standing.trans active) looping
    exact ⟨later, next, (start.trans first).trans second, collecting⟩

/-- A subscription whose cursor has reached the last message ends its dispatch, and has received
all it is due. -/
theorem Ok.finish (ok : system.Ok layout decodes) (runs : system.running index = some sub)
    (active : sub.standing = .active) (replay : sub.mode = .replay)
    (collecting : sub.phase = .collecting) {k : Fin kMaxSubscriberCursors}
    (found : system.channel.findCursorLocked sub.token = some k)
    (reached : system.channel.seq ≤ (system.channel.cursors k).readSeq) :
    ∃ later, Turns layout decodes index system sub later { sub with phase := .idle } ∧
      sub.received = sub.due decodes system.log := by
  have advanced : sub.advance layout decodes system.channel =
      (system.channel, { sub with phase := .idle }) := by
    rw [Subscription.advance, collecting]
    dsimp only
    rw [found]
    exact if_pos reached
  obtain ⟨later, turns⟩ := Turns.phase ok runs .idle sub.received advanced
  obtain ⟨own, token⟩ := Channel.findCursorLocked_some found
  have held := ok.held sub (mem_of_getElem? (running_eq_some runs).1)
  have all := (held.position replay k own token).2 (.inl active)
  rw [Subscription.dueUpTo_of_le ok.stored reached, Subscription.handed, collecting] at all
  exact ⟨later, turns, (append_nil _).symm.trans all⟩

/-- Left alone, the dispatch of a subscription that is to replay hands out all it is due. -/
theorem Ok.completes (ok : system.Ok layout decodes) (runs : system.running index = some sub)
    (active : sub.standing = .active) (replay : sub.mode = .replay) :
    ∃ later next, Dispatches layout decodes index system later ∧ later.log = system.log ∧
      later.running index = some next ∧ next.phase = .idle ∧
      next.received = sub.due decodes system.log := by
  obtain ⟨middle, between, first, collecting⟩ := turns_collecting ok runs active
  have still : between.standing = .active := first.same.standing.trans active
  have held := first.ok.held between (mem_of_getElem? (running_eq_some first.runs).1)
  obtain ⟨k, own, token⟩ := held.owns (running_eq_some first.runs).2
    (by rw [still]; exact Standing.noConfusion)
  have found := first.ok.sound.findCursorLocked own token
  have due {next : Subscription} (same : sub.Same next) :
      next.due decodes system.log = sub.due decodes system.log := by
    refine filter_congr fun message _ => ?_
    rw [same.start, Subscription.takes, Subscription.takes, same.native]
  by_cases reached : middle.channel.seq ≤ (middle.channel.cursors k).readSeq
  · obtain ⟨later, last, all⟩ := first.ok.finish first.runs still (first.same.mode.trans replay)
      collecting found reached
    refine ⟨later, _, (first.trans last).reached, (first.trans last).log, last.runs, rfl, ?_⟩
    rw [first.log] at all
    exact all.trans (due first.same)
  · have advanced : between.advance layout decodes middle.channel =
        (middle.channel.setCursor k
            { middle.channel.cursors k with readSeq := middle.channel.seq },
          { between with
            phase := .delivering (middle.channel.batch layout (middle.channel.cursors k)) }) := by
      rw [Subscription.advance, collecting]
      dsimp only
      rw [found]
      exact if_neg reached
    obtain ⟨after, stepped, fine, channel, log, runs⟩ := first.ok.turn first.runs
    rw [advanced] at channel runs
    obtain ⟨again, next, second, collecting⟩ := turns_collecting fine runs still
    have cursor : again.channel.cursors k =
        { middle.channel.cursors k with readSeq := middle.channel.seq } := by
      rw [second.channel, channel]
      exact Channel.setCursor_self k _
    have seq : again.channel.seq = middle.channel.seq := by
      rw [second.channel, channel]
      rfl
    have foundAgain := second.ok.sound.findCursorLocked (by rw [cursor]; exact own)
      (show (again.channel.cursors k).token = next.token by
        rw [cursor, second.same.token]
        exact token)
    obtain ⟨later, last, all⟩ := second.ok.finish second.runs (second.same.standing.trans still)
      (second.same.mode.trans (first.same.mode.trans replay)) collecting foundAgain
      (by rw [cursor, seq])
    refine ⟨later, _, Reaches.trans first.reached (Reaches.trans (.next .refl rfl stepped)
      (second.trans last).reached), ?_, last.runs, rfl, ?_⟩
    · rw [last.log, second.log, log, first.log]
    · rw [second.log, log, first.log] at all
      exact all.trans (due ((first.same.trans (.phase _ between.received)).trans second.same))

/-- Every subscription that is to replay receives what is above its starting cursor, once and in
order, until it stops; what a cursor has yet to replay is in its slot. -/
structure Delivers (layout : Layout) (decodes : Bytes → Bool) (system : System) : Prop where
  numbered : system.log.map Message.sequence = List.range' 1 system.channel.seq
  received : ∀ sub ∈ system.subs, sub.mode = .replay →
    sub.received <+: sub.due decodes system.log
  completed : ∀ index sub, system.running index = some sub → sub.standing = .active →
    sub.mode = .replay → ∃ later next, Dispatches layout decodes index system later ∧
      later.log = system.log ∧ later.running index = some next ∧ next.phase = .idle ∧
      next.received = sub.due decodes system.log
  kept : ∀ k, system.channel.Replays k → ∀ message ∈ system.log,
    (system.channel.cursors k).readSeq < message.sequence →
      system.channel.entry layout message.sequence = some message
  counted : system.channel.cursorCount =
    (Finset.univ.filter fun k => (system.channel.cursors k).active = true).card

/-- A refused publication keeps the sequence, the slots and the mode, and the whole channel exactly
when it is quiet. -/
def RefusesQuietly (layout : Layout) (channel : Channel) : Prop :=
  ∀ probe origin bytes mode, (channel.publishBytes layout probe origin bytes mode).2 = none →
    (channel.publishBytes layout probe origin bytes mode).1.seq = channel.seq ∧
    (channel.publishBytes layout probe origin bytes mode).1.slots = channel.slots ∧
    (channel.publishBytes layout probe origin bytes mode).1.defaultMode = channel.defaultMode ∧
    ((channel.publishBytes layout probe origin bytes mode).1 = channel ↔
      channel.Quiet layout probe bytes mode)

theorem refusesQuietly (layout : Layout) (channel : Channel) : RefusesQuietly layout channel := by
  intro probe origin bytes mode refused
  obtain ⟨seq, slots, defaultMode⟩ := Channel.publishBytes_refused refused
  exact ⟨seq, slots, defaultMode, Channel.publishBytes_eq_self_iff refused⟩

theorem Ok.delivers (ok : system.Ok layout decodes) : system.Delivers layout decodes where
  numbered := ok.stored.numbered
  received sub member replay :=
    (prefix_append _ _).trans ((ok.held sub member).ordered replay)
  completed index sub runs active replay := ok.completes runs active replay
  kept k replays message member unread := by
    have kept := ok.sound.kept replays
    exact ok.stored.entries message member (by omega)
  counted := ok.sound.counted

/-- As long as no token is handed out twice the channel delivers, and a refused publication leaves
it alone exactly when it is quiet. -/
theorem delivers_of_reaches {channelMode : DeliveryMode}
    (reached : Reaches (step layout decodes) TokensLeft (created channelMode) system) :
    system.Delivers layout decodes ∧ RefusesQuietly layout system.channel :=
  have ok : system.Ok layout decodes :=
    reached.invariant (ok_created layout decodes channelMode) fun ok left stepped =>
      ok.step left stepped
  ⟨ok.delivers, refusesQuietly layout system.channel⟩

instance (system : System) : ∀ action, Decidable (system.TokensLeft action)
  | .subscribe .. => inferInstanceAs (Decidable (_ < _))
  | .publish .. | .advance _ | .stop _ | .release _ | .exit _ => inferInstanceAs (Decidable True)

def twoSlots : Layout where
  capacity := 2
  maxPayload := 4
  capacity_pos := Nat.two_pos

/-- Two messages fill the ring, and a third is refused until both are handed out. -/
def handedOut : List Action :=
  [.subscribe 7 true .replay (fun _ _ => false) fun _ => .alive,
    .publish 0 [1] .replay fun _ => .alive, .publish 0 [2] .replay fun _ => .alive,
    .publish 0 [3] .replay fun _ => .alive] ++ replicate 8 (.advance 0) ++
    [.publish 0 [4] .replay fun _ => .alive]

theorem delivers_of_reaches_handedOut : ∃ system,
    Reaches (step twoSlots fun _ => true) TokensLeft (created .replay) system ∧
      system.subs.map Subscription.received = [[⟨1, 0, [1]⟩, ⟨2, 0, [2]⟩]] ∧
      system.log.map Message.bytes = [[1], [2], [4]] ∧
      system.Delivers twoSlots (fun _ => true) ∧ RefusesQuietly twoSlots system.channel := by
  have ran : (List.foldlM (fun (system : System) action =>
      if system.TokensLeft action then system.step twoSlots (fun _ => true) action else none)
      (created .replay) handedOut).map (fun system =>
        (system.subs.map Subscription.received, system.log.map Message.bytes)) =
      some ([[⟨1, 0, [1]⟩, ⟨2, 0, [2]⟩]], [[1], [2], [4]]) := by decide +kernel
  obtain ⟨system, run, seen⟩ := Option.map_eq_some_iff.mp ran
  have reached := Reaches.of_checked run
  exact ⟨system, reached, congrArg Prod.fst seen, congrArg Prod.snd seen,
    delivers_of_reaches reached⟩

/-- A channel of one slot. -/
def oneSlot : Layout where
  capacity := 1
  maxPayload := 4
  capacity_pos := Nat.one_pos

def firstCursor : Fin kMaxSubscriberCursors := ⟨0, by decide⟩

/-- One follower of a channel in latest-only mode falls two messages behind, and a publication that
turns the channel to replay is refused. -/
theorem refusal_moves_follower : ¬∀ (layout : Layout) (decodes : Bytes → Bool)
    (channelMode : DeliveryMode) (system : System),
    Reaches (step layout decodes) (fun _ _ => True) (created channelMode) system →
      system.Delivers layout decodes ∧
      ∀ probe origin bytes mode,
        (system.channel.publishBytes layout probe origin bytes mode).2 = none →
          (system.channel.publishBytes layout probe origin bytes mode).1 = system.channel := by
  intro quiet
  have ran : (List.foldlM (step oneSlot fun _ => true) (created .latestOnly)
      [.subscribe 7 false .followPublisher (fun _ _ => false) fun _ => .alive,
        .publish 0 [1] .followPublisher fun _ => .alive,
        .publish 0 [2] .followPublisher fun _ => .alive]).map (fun system =>
          let refused := system.channel.publishBytes oneSlot (fun _ => .alive) 0 [3] .replay
          ((system.channel.cursors firstCursor).readSeq, refused.2, (refused.1.cursors firstCursor).readSeq)) =
      some (0, none, 1) := by decide +kernel
  obtain ⟨system, run, seen⟩ := Option.map_eq_some_iff.mp ran
  have reached := Reaches.of_foldlM (fun _ _ => trivial) run
  have before := congrArg Prod.fst seen
  have refused := congrArg (fun seen => seen.2.1) seen
  have after := congrArg (fun seen => seen.2.2) seen
  have same := (quiet oneSlot _ _ system reached).2 (fun _ => .alive) 0 [3] .replay refused
  dsimp only at before after
  rw [same, before] at after
  cases after

end System
end SwStack.Ipc.RingQueue
