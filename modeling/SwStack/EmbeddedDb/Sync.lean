import SwStack.EmbeddedDb.LogOpen

/-! What an Ok from `sync` is worth. It compares one sequence, the highest visible at
the call, with the highest durable one, although requests are queued in any order. -/
namespace SwStack.EmbeddedDb

open SwStack.Lib List

/-- The frame is in the synced part of a log file or in a table of the persisted
manifest. -/
def World.Secured (world : World) (frame : Frame) : Prop :=
  (∃ walId, frame ∈ (world.disk.wal walId).synced) ∨
    ∃ manifest, world.disk.persisted = some manifest ∧ frame ∈ manifest.frames

/-- The process goes on. -/
def World.SameSession (_ : World) (action : Action) : Prop :=
  action ≠ .crash ∧ action ≠ .closeFinish

/-- A `sync` called here secures every write acknowledged by now, when it returns Ok at
once or after its wait. -/
def World.SyncGuarantee (world : World) (db : Db) : Prop :=
  (db.syncStart = .ok → ∀ request ∈ db.acknowledged, world.Secured request.frame) ∧
  ∀ target, db.syncStart = .wait target → ∀ later after,
    Reaches World.step World.SameSession world later → later.db = some after →
    after.syncReturnsOk target = true → ∀ request ∈ db.acknowledged, later.Secured request.frame

/-- The acknowledged ones among these requests are in tables. -/
def Db.Flushed (db : Db) (requests : List Request) : Prop :=
  ∀ request ∈ requests, request ∈ db.acknowledged → request.frame ∈ db.store.manifest.frames

/-- The call fails, or will fail; or the request with the highest visible sequence is
still queued, so the wait covers the queue; or the queue holds no acknowledged write
that is not in a table, and the wait covers the group in commit or has no need to. -/
def Db.SyncSafe (db : Db) : Prop :=
  db.syncStart = .error ∨
  (∃ group, db.service = .failed group) ∧
    db.lastDurableSequence < db.store.lastVisibleSequence ∨
  (∃ request ∈ db.pendingWrites, request.sequence = db.store.lastVisibleSequence) ∨
  db.Flushed db.pendingWrites ∧
    (db.lastDurableSequence < db.store.lastVisibleSequence ∨ db.Flushed db.service.unsynced)

/-- The persisted manifest lists no batch the process's own manifest does not. Only a
save that failed at `CURRENT` breaks this. -/
def World.PersistedAgrees (world : World) (db : Db) : Prop :=
  ∀ manifest, world.disk.persisted = some manifest →
    ∀ frame ∈ manifest.frames, frame ∈ db.store.manifest.frames

namespace ServiceStage

/-- The highest sequence of the group in commit. -/
def target? : ServiceStage → Option Nat
  | drained _ target | opened _ target | appended _ target | committed _ target => some target
  | failed _ | idle | stopped => none

end ServiceStage

theorem groupTarget_spec (nonempty : group ≠ []) :
    (∀ request ∈ group, request.sequence ≤ Db.groupTarget group) ∧
      ∃ request ∈ group, request.sequence = Db.groupTarget group := by
  have folded : ∀ (group : List Request) (start : Nat),
      (start ≤ group.foldl (fun target request => max target request.frame.sequence) start ∧
        ∀ request ∈ group, request.sequence ≤
          group.foldl (fun target request => max target request.frame.sequence) start) ∧
      (group.foldl (fun target request => max target request.frame.sequence) start = start ∨
        ∃ request ∈ group, request.sequence =
          group.foldl (fun target request => max target request.frame.sequence) start) := by
    intro group
    induction group with
    | nil => exact fun start => ⟨⟨le_refl _, forall_mem_nil _⟩, .inl rfl⟩
    | cons first rest ih =>
      intro start
      obtain ⟨⟨raised, bounded⟩, source⟩ := ih (max start first.sequence)
      refine ⟨⟨(le_max_left _ _).trans raised, ?_⟩, ?_⟩
      · exact forall_mem_cons.mpr ⟨(le_max_right _ _).trans raised, bounded⟩
      · rcases source with same | ⟨request, member, same⟩
        · rcases max_choice start first.sequence with chosen | chosen
          · exact .inl (same.trans chosen)
          · exact .inr ⟨first, mem_cons_self, (same.trans chosen).symm⟩
        · exact .inr ⟨request, mem_cons_of_mem _ member, same⟩
  obtain ⟨⟨-, bounded⟩, source⟩ := folded group 0
  refine ⟨bounded, ?_⟩
  rcases source with zero | found
  · obtain ⟨first, rest, rfl⟩ := exists_cons_of_ne_nil nonempty
    have le := bounded first mem_cons_self
    exact ⟨first, mem_cons_self, by unfold Db.groupTarget; omega⟩
  · exact found

namespace LogState

/-- The frame stays secured as long as the process runs. -/
def Safe (state : LogState) (frame : Frame) : Prop :=
  frame ∈ state.store.manifest.frames ∨
    ∃ walId, (walId, frame) ∈ state.walFrames ∧ frame ∈ (state.wal walId).synced

structure SyncOk (state : LogState) : Prop where
  acknowledged : ∀ request ∈ state.acknowledged, state.backgroundWriteError = true ∨
    request ∈ state.pendingWrites ∨ request ∈ state.service.unsynced ∨ state.Safe request.frame
  visible : state.backgroundWriteError = true ∨
    state.store.lastVisibleSequence ≤ state.lastDurableSequence ∨
    ∃ request ∈ state.pendingWrites ++ state.service.unsynced,
      request.sequence = state.store.lastVisibleSequence
  durable : state.lastDurableSequence ≤ state.store.lastVisibleSequence
  fresh : ∀ request ∈ state.tickets ++ state.pendingWrites ++ state.service.unsynced,
    request.sequence ≠ state.lastDurableSequence
  target : ∀ target, state.service.target? = some target →
    (∀ request ∈ state.service.group, request.sequence ≤ target) ∧
      ∃ request ∈ state.service.group, request.sequence = target
  committed : ∀ group target, state.service = .committed group target →
    target ≤ state.lastDurableSequence ∧ ∀ request ∈ group, state.Safe request.frame

namespace Safe

variable {state next : LogState}

theorem installed (safe : state.Safe frame) (mem : MemLog) : (state.installed mem).Safe frame :=
  safe.imp_left fun carried => mem_append_left _ carried

/-- A file is removed only when no memtable needs it, and then the tables carry its
frames. -/
theorem cleaned (safe : state.Safe frame) (ids : state.IdsOk) (coverage : state.CoverageOk)
    (notClosing : state.closing = false) : state.cleaned.Safe frame := by
  rcases safe with carried | ⟨walId, listed, held⟩
  · exact .inl carried
  · obtain ⟨noneHeld, -, -⟩ := coverage.notClosing notClosing
    rcases coverage.covered notClosing frame (.inl ⟨walId, listed⟩) with carried | resident
    · exact .inl carried
    · obtain ⟨mem, member, carried⟩ := resident
      have live : mem ∈ state.store.mutable :: state.store.immutables := by
        rwa [LogState.mems, noneHeld, append_nil] at member
      have needed : state.store.replayFrom ≤ walId :=
        (StoreLog.replayFrom_le_mem live (ids.mems mem member).1).trans
          ((coverage.guarded mem member).1 walId frame listed carried).1
      refine .inr ⟨walId, listed, ?_⟩
      have kept : state.cleaned.wal walId = state.wal walId := by
        rw [wal_eq, wal_eq]
        refine walIn_filter _ _ _ fun file => ?_
        simp
        omega
      rw [kept]
      exact held

theorem relog (safe : state.Safe frame) (walId : Nat) (file : WalFile)
    (grows : ∀ frame ∈ (state.wal walId).synced, frame ∈ file.synced) :
    { state with wals := state.wals.insert walId file }.Safe frame := by
  refine safe.imp_right ?_
  rintro ⟨other, listed, held⟩
  refine ⟨other, listed, ?_⟩
  rw [wal_eq, walIn_insert]
  split
  · rename_i same
    subst same
    exact grows frame held
  · exact held

theorem step (safe : state.Safe frame) (ok : state.Ok) (stepped : LogStep state action next) :
    next.Safe frame := by
  cases stepped with
  | openNext => exact safe.relog _ _ fun _ held => held
  | @append group target failAfter opened =>
    let file := state.wal state.activeWalFileId
    have logged := safe.relog state.activeWalFileId
      { file with unsynced := file.unsynced ++ appendedFrames group failAfter } fun _ held => held
    exact logged.imp_right fun ⟨walId, listed, held⟩ => ⟨walId, mem_append_left _ listed, held⟩
  | sync => exact safe.relog _ _ fun _ held => mem_append_left _ held
  | install => exact safe.installed _
  | @installClean mem flushing notClosing =>
    have installed : { state.installed mem with flushing := some (mem, true) }.Safe frame :=
      safe.installed mem
    exact installed.cleaned { ok.ids.installed mem with } (ok.coverage.installed_step flushing)
      notClosing
  | closeInstall => exact safe.installed _
  | _ => exact safe

theorem synced (coverage : state.CoverageOk) (appended : state.service = .appended group target)
    (member : request ∈ group) : (state.synced group target).Safe request.frame := by
  obtain ⟨present, listed⟩ := coverage.appended group target appended request member
  refine .inr ⟨state.activeWalFileId, listed, ?_⟩
  rw [wal_eq]
  simp only [LogState.synced, walIn_insert, if_pos]
  exact present

end Safe

namespace SyncOk

variable {state next : LogState}

theorem applied_step (ok : state.SyncOk) (found : state.tickets[index]? = some request) :
    (state.applied index request).SyncOk := by
  have ticket : request ∈ state.tickets := mem_of_getElem? found
  have queued : ∀ other ∈ state.pendingWrites,
      other ∈ (state.applied index request).pendingWrites := fun _ member =>
    mem_append_left _ member
  refine { ok with acknowledged := ?_, visible := ?_, durable := ?_, fresh := ?_ }
  · intro other member
    have cases : other ∈ state.acknowledged ∨ other = request := by
      simp only [LogState.applied] at member
      split at member
      · exact .inl member
      · simpa using member
    rcases cases with member | rfl
    · exact (ok.acknowledged other member).imp_right (Or.imp_left (queued other))
    · exact .inr (.inl (mem_append_right _ (mem_singleton_self _)))
  · rcases max_choice state.store.lastVisibleSequence request.sequence with same | same
    · have visible : (state.applied index request).store.lastVisibleSequence =
          state.store.lastVisibleSequence := same
      rw [visible]
      refine ok.visible.imp_right (Or.imp_right ?_)
      rintro ⟨other, member, equal⟩
      refine ⟨other, ?_, equal⟩
      rcases mem_append.mp member with member | member
      · exact mem_append_left _ (queued other member)
      · exact mem_append_right _ member
    · right
      right
      exact ⟨request, mem_append_left _
        (mem_append_right _ (mem_singleton_self _)), same.symm⟩
  · exact ok.durable.trans (le_max_left _ _)
  · intro other member
    apply ok.fresh
    simp only [LogState.applied, mem_append, mem_singleton] at member ⊢
    rcases member with (member | member | rfl) | member
    · exact .inl (.inl (mem_of_mem_eraseIdx member))
    · exact .inl (.inr member)
    · exact .inl (.inl ticket)
    · exact .inr member

theorem synced_step {target : Nat} (ok : state.SyncOk) (whole : state.Ok)
    (appended : state.service = .appended group target) : (state.synced group target).SyncOk := by
  have taken : state.service.group = group := by rw [appended]; rfl
  have unsynced : state.service.unsynced = group := by rw [appended]; rfl
  obtain ⟨bounded, top, member, topTarget⟩ := ok.target target (by rw [appended]; rfl)
  rw [taken] at bounded member
  have safe : ∀ frame, state.Safe frame → (state.synced group target).Safe frame :=
    fun frame safe => safe.step whole (.sync appended)
  have groupSafe : ∀ request ∈ group, (state.synced group target).Safe request.frame :=
    fun request member => .synced whole.coverage appended member
  have raised : (state.synced group target).lastDurableSequence =
    max state.lastDurableSequence target := rfl
  refine { ok with
    acknowledged := ?_, visible := ?_, durable := ?_, fresh := ?_, target := ?_, committed := ?_ }
  · intro request acked
    rcases ok.acknowledged request acked with failed | queued | inGroup | isSafe
    · exact .inl failed
    · exact .inr (.inl queued)
    · exact .inr (.inr (.inr (groupSafe request (unsynced ▸ inGroup))))
    · exact .inr (.inr (.inr (safe _ isSafe)))
  · rcases ok.visible with failed | durable | ⟨request, queued, same⟩
    · exact .inl failed
    · exact .inr (.inl (durable.trans (le_max_left _ _)))
    · right
      rcases mem_append.mp queued with queued | inGroup
      · exact .inr ⟨request, mem_append_left _ queued, same⟩
      · left
        have le := bounded request (unsynced ▸ inGroup)
        rw [raised]
        exact (same ▸ le).trans (le_max_right _ _)
  · rw [raised]
    refine max_le ok.durable ?_
    rw [← topTarget]
    exact whole.sequences.applied top (mem_append_right _ (taken.symm ▸ member))
  · intro request waits
    have waits : request ∈ state.tickets ++ state.pendingWrites := by
      simpa only [synced, ServiceStage.unsynced, append_nil] using waits
    rw [raised]
    rcases max_choice state.lastDurableSequence target with same | same
    · rw [same]
      exact ok.fresh request (mem_append_left _ waits)
    · rw [same, ← topTarget]
      exact whole.sequences.waiting_ne_group waits (taken.symm ▸ member)
  · rintro _ ⟨⟩
    exact ⟨bounded, top, member, topTarget⟩
  · rintro _ _ ⟨⟩
    exact ⟨le_max_right _ _, groupSafe⟩

theorem acknowledged_mono (ok : state.SyncOk)
    (safe : ∀ frame, state.Safe frame → next.Safe frame) :
    ∀ request ∈ state.acknowledged, state.backgroundWriteError = true ∨
      request ∈ state.pendingWrites ∨ request ∈ state.service.unsynced ∨ next.Safe request.frame :=
  fun request acked =>
    (ok.acknowledged request acked).imp_right (Or.imp_right (Or.imp_right (safe _)))

theorem committed_mono (ok : state.SyncOk) (safe : ∀ frame, state.Safe frame → next.Safe frame) :
    ∀ group target, state.service = .committed group target →
      target ≤ state.lastDurableSequence ∧ ∀ request ∈ group, next.Safe request.frame :=
  fun group target committed => (ok.committed group target committed).imp_right
    fun all request member => safe _ (all request member)

theorem regroup (ok : state.SyncOk) (service : ServiceStage)
    (unsynced : service.unsynced = state.service.unsynced)
    (group : service.group = state.service.group)
    (target : ∀ target, service.target? = some target → state.service.target? = some target)
    (notCommitted : ∀ group target, service ≠ .committed group target) :
    ({ state with service } : LogState).SyncOk := by
  refine { ok with
    acknowledged := ?_, visible := ?_, fresh := ?_, target := ?_
    committed := fun group target committed => absurd committed (notCommitted group target) }
  · rw [unsynced]
    exact ok.acknowledged
  · rw [unsynced]
    exact ok.visible
  · rw [unsynced]
    exact ok.fresh
  · intro top found
    rw [group]
    exact ok.target top (target top found)

theorem drained_step (ok : state.SyncOk) (idle : state.service = .idle)
    (queued : state.pendingWrites ≠ []) :
    { state with
      service := .drained state.pendingWrites (Db.groupTarget state.pendingWrites)
      pendingWrites := [] }.SyncOk := by
  have empty : state.service.unsynced = [] := by rw [idle]; rfl
  refine { ok with acknowledged := ?_, visible := ?_, fresh := ?_, target := ?_, committed := by simp }
  · intro request acked
    rcases ok.acknowledged request acked with failed | member | member | safe
    · exact .inl failed
    · exact .inr (.inr (.inl member))
    · rw [empty] at member
      contradiction
    · exact .inr (.inr (.inr safe))
  · have visible := ok.visible
    rwa [empty, append_nil] at visible
  · have fresh := ok.fresh
    rw [empty, append_nil] at fresh
    intro request member
    rw [append_nil] at member
    exact fresh request member
  · rintro _ ⟨⟩
    exact groupTarget_spec queued

theorem failed_step (ok : state.SyncOk) (failed : error = true)
    (pending : List Request) (fewer : ∀ request ∈ pending, request ∈ state.pendingWrites) :
    { state with
      backgroundWriteError := error, service := .stopped, pendingWrites := pending }.SyncOk := by
  refine { ok with
    acknowledged := fun _ _ => .inl failed, visible := .inl failed, fresh := ?_
    target := by intros; contradiction
    committed := by simp }
  intro request member
  apply ok.fresh
  simp only [ServiceStage.unsynced, append_nil, mem_append] at member ⊢
  exact .inl (member.imp_right (fewer request))

theorem step (ok : state.SyncOk) (whole : state.Ok) (stepped : LogStep state action next) :
    next.SyncOk := by
  cases stepped with
  | quiet => exact ok
  | submit wait _ _ =>
    refine { ok with fresh := ?_ }
    intro request member
    have cases : request ∈ state.tickets ++ state.pendingWrites ++ state.service.unsynced ∨
        request.sequence = state.nextSequence := by
      simp only [submitted, mem_append, mem_singleton] at member ⊢
      rcases member with ((member | rfl) | member) | member
      · exact .inl (.inl (.inl member))
      · exact .inr rfl
      · exact .inl (.inl (.inr member))
      · exact .inl (.inr member)
    rcases cases with member | same
    · exact ok.fresh request member
    · have below := whole.sequences.visible
      have durable := ok.durable
      simp only [submitted]
      omega
  | refuse =>
    refine { ok with fresh := ?_ }
    intro request member
    apply ok.fresh
    simp only [mem_append] at member ⊢
    exact member.imp_left (Or.imp_left mem_of_mem_eraseIdx)
  | apply found _ _ => exact ok.applied_step found
  | applyRotate found _ _ => exact { ok.applied_step found with }
  | drain idle queued => exact ok.drained_step idle queued
  | openFails drained =>
    exact ok.regroup _ (by rw [drained]; rfl) (by rw [drained]; rfl) (by intros; contradiction) (by simp)
  | openSame drained _ =>
    exact ok.regroup _ (by rw [drained]; rfl) (by rw [drained]; rfl)
      (by rw [drained]; exact fun _ => id) (by simp)
  | openNext drained =>
    have moved := ok.regroup (.opened _ _) (by rw [drained]; rfl) (by rw [drained]; rfl)
      (by rw [drained]; exact fun _ => id) (by simp)
    exact { moved with
      acknowledged := moved.acknowledged_mono fun frame (safe : state.Safe frame) =>
        safe.relog _ _ fun _ held => held
      committed := by simp }
  | @append group target failAfter opened =>
    have safe : ∀ frame, state.Safe frame → (state.appended group target failAfter).Safe frame :=
      fun frame safe => safe.step whole (.append opened)
    have stage : (state.appended group target failAfter).service =
        if failAfter.isNone then .appended group target else .failed group := rfl
    have moved := ok.regroup (state.appended group target failAfter).service
      (by rw [stage, opened]; split <;> rfl) (by rw [stage, opened]; split <;> rfl)
      (by rw [stage, opened]; split; exacts [fun _ => id, (by intros; contradiction)])
      (by rw [stage]; split <;> simp)
    exact { moved with
      acknowledged := moved.acknowledged_mono safe
      committed := moved.committed_mono safe }
  | sync appended => exact ok.synced_step whole appended
  | syncFails appended =>
    exact ok.regroup _ (by rw [appended]; rfl) (by rw [appended]; rfl) (by intros; contradiction) (by simp)
  | @answer group target committed =>
    obtain ⟨reached, groupSafe⟩ := ok.committed group target committed
    have same : max state.lastDurableSequence target = state.lastDurableSequence :=
      max_eq_left reached
    have nothing : state.service.unsynced = [] := by rw [committed]; rfl
    have visible := ok.visible
    have durable := ok.durable
    have fresh := ok.fresh
    have acknowledged := ok.acknowledged
    rw [nothing] at visible fresh
    rw [← same] at visible durable fresh
    refine { visible, durable, fresh, target := by intros; contradiction, committed := by simp
             acknowledged := ?_ }
    intro request member
    rcases mem_append.mp member with acked | member
    · rcases acknowledged request acked with failed | queued | inGroup | safe
      · exact .inl failed
      · exact .inr (.inl queued)
      · rw [nothing] at inGroup
        contradiction
      · exact .inr (.inr (.inr safe))
    · exact .inr (.inr (.inr (groupSafe request (mem_filter.mp member).1)))
  | stop _ => exact ok.failed_step rfl state.pendingWrites fun _ => id
  | flushTake => exact { ok with }
  | flushEnds => exact { ok with }
  | install flushing closing =>
    have step := LogStep.install flushing closing
    exact { ok with
      acknowledged := ok.acknowledged_mono fun frame safe => safe.step whole step
      committed := ok.committed_mono fun frame safe => safe.step whole step }
  | installClean flushing notClosing =>
    have step := LogStep.installClean flushing notClosing
    exact { ok with
      acknowledged := ok.acknowledged_mono fun frame safe => safe.step whole step
      committed := ok.committed_mono fun frame safe => safe.step whole step }
  | installFails => exact { ok with }
  | pop => exact { ok with }
  | save => exact { ok with }
  | closeBegin => exact { ok with }
  | closeStop stopped closing notStopping =>
    rcases stopped with stopped | ⟨idle, empty⟩
    · have failed : state.backgroundWriteError = true := by
        refine (whole.coverage.stopped stopped).resolve_right ?_
        rw [notStopping]
        simp
      exact { ok.failed_step failed [] (by simp) with }
    · have moved := ok.regroup .stopped (by rw [idle]; rfl) (by rw [idle]; rfl)
        (by intros; contradiction) (by simp)
      have stopped : { state with
          service := .stopped, stopping := true
          pendingWrites := state.pendingWrites }.SyncOk := { moved with }
      rwa [empty] at stopped
  | closeTake => exact { ok with }
  | closeTakeNone => exact { ok with }
  | closeFails => exact { ok with }
  | closeInstall closeFlush closing =>
    have step := LogStep.closeInstall closeFlush closing
    exact { ok with
      acknowledged := ok.acknowledged_mono fun frame safe => safe.step whole step
      committed := ok.committed_mono fun frame safe => safe.step whole step }
  | closeInstallFails => exact { ok with }

end SyncOk
/-- Where a call stands that waits for `target` on behalf of the writes `acked`: it can
only fail; or they are safe; or the sequence it waits for is in the group in commit, or
still in the queue behind that group, together with the writes that are not safe yet. -/
def Waits (state : LogState) (acked : List Request) (target : Nat) : Prop :=
  state.backgroundWriteError = true ∨
  (∀ request ∈ acked, state.Safe request.frame) ∨
  state.lastDurableSequence < target ∧
    ((∃ group, state.service = .failed group) ∨
    (∃ request ∈ state.service.unsynced, request.sequence = target) ∧
      (∀ request ∈ acked, request ∈ state.service.unsynced ∨ state.Safe request.frame) ∨
    (∃ request ∈ state.pendingWrites, request.sequence = target) ∧
      (∀ request ∈ state.service.unsynced, request.sequence < target) ∧
      ∀ request ∈ acked, request ∈ state.pendingWrites ∨ request ∈ state.service.unsynced ∨
        state.Safe request.frame)

/-- What a step does to the queue. -/
inductive QueueStep (state next : LogState) : Prop where
  | keeps : (∀ request ∈ state.pendingWrites, request ∈ next.pendingWrites) →
      next.service.unsynced = state.service.unsynced →
      next.lastDurableSequence = state.lastDurableSequence →
      (∀ group, state.service = .failed group → next.service = .failed group) →
      next.backgroundWriteError = state.backgroundWriteError → QueueStep state next
  | drain : state.service = .idle → next.service.unsynced = state.pendingWrites →
      next.lastDurableSequence = state.lastDurableSequence →
      next.backgroundWriteError = state.backgroundWriteError → QueueStep state next
  | sync (target : Nat) : state.service = .appended group target →
      next = state.synced group target → QueueStep state next
  | fails : next.backgroundWriteError = true → QueueStep state next

theorem queueStep {state next : LogState} (ok : state.Ok) (sync : state.SyncOk)
    (stepped : LogStep state action next) : QueueStep state next := by
  cases stepped with
  | apply | applyRotate =>
    exact .keeps (fun _ member => mem_append_left _ member) rfl rfl (fun _ => id) rfl
  | drain idle _ => exact .drain idle rfl rfl rfl
  | openFails drained =>
    exact .keeps (fun _ => id) (by rw [drained]; rfl) rfl (by rw [drained]; simp) rfl
  | openSame drained _ =>
    exact .keeps (fun _ => id) (by rw [drained]; rfl) rfl (by rw [drained]; simp) rfl
  | openNext drained =>
    exact .keeps (fun _ => id) (by rw [drained]; rfl) rfl (by rw [drained]; simp) rfl
  | @append group target failAfter opened =>
    have stage : (state.appended group target failAfter).service =
        if failAfter.isNone then .appended group target else .failed group := rfl
    exact .keeps (fun _ => id) (by rw [stage, opened]; split <;> rfl) rfl (by rw [opened]; simp) rfl
  | sync appended => exact .sync _ appended rfl
  | syncFails appended =>
    exact .keeps (fun _ => id) (by rw [appended]; rfl) rfl (by rw [appended]; simp) rfl
  | answer committed =>
    have reached := (sync.committed _ _ committed).1
    exact .keeps (fun _ => id) (by rw [committed]; rfl) (max_eq_left reached)
      (by rw [committed]; simp) rfl
  | stop => exact .fails rfl
  | closeStop stopped _ notStopping =>
    rcases stopped with stopped | ⟨idle, empty⟩
    · refine .fails ((ok.coverage.stopped stopped).resolve_right ?_)
      rw [notStopping]
      simp
    · exact .keeps (by rw [empty]; simp) (by rw [idle]; rfl) rfl (by rw [idle]; simp) rfl
  | _ => exact .keeps (fun _ => id) rfl rfl (fun _ => id) rfl

theorem Waits.step {state next : LogState} {acked : List Request} {target : Nat}
    (waits : state.Waits acked target) (ok : state.Ok) (sync : state.SyncOk)
    (stepped : LogStep state action next) : next.Waits acked target := by
  have safe : ∀ frame, state.Safe frame → next.Safe frame := fun frame safe => safe.step ok stepped
  rcases waits with failed | allSafe | ⟨below, stage⟩
  · left
    cases queueStep ok sync stepped with
    | keeps _ _ _ _ same => exact same.trans failed
    | drain _ _ _ same => exact same.trans failed
    | sync _ _ same => exact same ▸ failed
    | fails failed => exact failed
  · exact .inr (.inl fun request member => safe _ (allSafe request member))
  · cases queueStep ok sync stepped with
    | fails failed => exact .inl failed
    | keeps queued unsynced durable stillFailed _ =>
      refine .inr (.inr ⟨durable.symm ▸ below, ?_⟩)
      rw [unsynced]
      refine stage.imp (fun ⟨group, failed⟩ => ⟨group, stillFailed group failed⟩)
        (Or.imp (And.imp_right ?_) ?_)
      · exact fun all request member => (all request member).imp_right (safe _)
      · rintro ⟨⟨request, member, same⟩, lower, all⟩
        exact ⟨⟨request, queued request member, same⟩, lower, fun request member =>
          (all request member).imp (queued request) (Or.imp_right (safe _))⟩
    | drain idle unsynced durable _ =>
      have empty : state.service.unsynced = [] := by rw [idle]; rfl
      rw [empty] at stage
      rcases stage with ⟨group, failed⟩ | ⟨⟨_, member, _⟩, _⟩ | ⟨queued, -, all⟩
      · rw [idle] at failed
        contradiction
      · contradiction
      · refine .inr (.inr ⟨durable.symm ▸ below, .inr (.inl ⟨unsynced.symm ▸ queued, ?_⟩)⟩)
        rw [unsynced]
        intro request member
        rcases all request member with queued | member | isSafe
        · exact .inl queued
        · contradiction
        · exact .inr (safe _ isSafe)
    | sync top appended same =>
      subst same
      have unsynced : state.service.unsynced = _ := congrArg ServiceStage.unsynced appended
      rw [unsynced] at stage
      rcases stage with ⟨group, failed⟩ | ⟨-, all⟩ | ⟨queued, lower, all⟩
      · rw [appended] at failed
        contradiction
      · refine .inr (.inl fun request member => ?_)
        exact (all request member).elim (.synced ok.coverage appended) (safe _)
      · obtain ⟨-, request, member, isTop⟩ := sync.target top (by rw [appended]; rfl)
        rw [appended] at member
        have topBelow : top < target := isTop ▸ lower request member
        refine .inr (.inr ⟨max_lt below topBelow, .inr (.inr ⟨queued, (by intros; contradiction), ?_⟩)⟩)
        intro request member
        rcases all request member with queued | inGroup | isSafe
        · exact .inl queued
        · exact .inr (.inr (.synced ok.coverage appended inGroup))
        · exact .inr (.inr (safe _ isSafe))

end LogState

theorem sync_opened {disk : Disk} {manifest : Manifest} :
    (openedLog disk manifest).cleaned.SyncOk where
  acknowledged := by intros; contradiction
  visible := .inr (.inl (le_refl _))
  durable := le_refl _
  fresh := by intros; contradiction
  target := by intros; contradiction
  committed := by intros; contradiction

namespace World

/-- The invariant of every run, as the theorems about `sync` use it. -/
def SyncOk (world : World) : Prop :=
  world.Ok ∧ ∀ db, world.db = some db → (db.log world.disk).SyncOk

theorem SyncOk.initial : initial.SyncOk := by
  refine ⟨ok_initial, fun db opened => ?_⟩
  contradiction

theorem SyncOk.log {world : World} {db : Db} (ok : world.SyncOk) (opened : world.db = some db) :
    (db.log world.disk).Ok ∧ (db.log world.disk).SyncOk := by
  have whole := ok.1
  simp only [Ok, opened] at whole
  exact ⟨whole, ok.2 db opened⟩

theorem SyncOk.step {world next : World} (ok : world.SyncOk)
    (stepped : world.step action = some next) : next.SyncOk := by
  refine ⟨ok.1.step stepped, ?_⟩
  intro after found
  rcases step_cases stepped with ⟨options, closed, rfl, rfl⟩ | ⟨db, opened, rfl, rfl⟩ |
    ⟨db, opened, rfl, rfl⟩ | ⟨db, after', opened, stays, -, logged⟩
  · cases found
    rw [World.withDisk, openDb_log]
    exact sync_opened
  · contradiction
  · contradiction
  · rw [stays] at found
    cases found
    exact (ok.log opened).2.step (ok.log opened).1 logged

theorem SyncOk.of_reaches {allowed : World → Action → Prop}
    (ok : world.SyncOk) (reached : Reaches World.step allowed world later) : later.SyncOk :=
  reached.invariant ok fun ok _ stepped => ok.step stepped

/-- A waiting call is followed through the rest of the session. -/
theorem waits_later {world later : World} {acked : List Request} {target : Nat} {db : Db}
    (ok : world.SyncOk) (opened : world.db = some db)
    (waits : (db.log world.disk).Waits acked target)
    (reached : Reaches World.step SameSession world later) :
    later.SyncOk ∧ ∃ after, later.db = some after ∧ (after.log later.disk).Waits acked target := by
  induction reached with
  | refl => exact ⟨ok, db, opened, waits⟩
  | next _ permitted stepped ih =>
    obtain ⟨ok, db, opened, waits⟩ := ih
    refine ⟨ok.step stepped, ?_⟩
    rcases step_cases stepped with ⟨options, closed, -, -⟩ | ⟨_, _, crash, -⟩ |
      ⟨_, _, finish, -⟩ | ⟨db', after, opened', stays, -, logged⟩
    · rw [closed] at opened
      contradiction
    · exact absurd crash permitted.1
    · exact absurd finish permitted.2
    · rw [opened'] at opened
      cases opened
      exact ⟨after, stays, waits.step (ok.log opened').1 (ok.log opened').2 logged⟩

theorem secured_of_safe {world : World} {db : Db} (ok : (db.log world.disk).Ok)
    (safe : (db.log world.disk).Safe frame) : world.Secured frame := by
  rcases safe with carried | ⟨walId, -, held⟩
  · obtain ⟨saved, persisted, grows⟩ := ok.coverage.persisted
    obtain ⟨manifest, found, rfl⟩ := Option.map_eq_some_iff.mp persisted
    exact .inr ⟨manifest, found, grows frame carried⟩
  · exact .inl ⟨walId, held⟩

end World

theorem syncStart_cases {db : Db} (noError : db.syncStart ≠ .error) :
    db.backgroundWriteError = false ∧
      (db.syncStart = .ok ∧ db.store.lastVisibleSequence ≤ db.lastDurableSequence ∧
          db.pendingWrites = [] ∨
        db.syncStart = .wait db.store.lastVisibleSequence) := by
  simp only [Db.syncStart] at noError ⊢
  split at noError
  · contradiction
  · rename_i admitted
    rw [if_neg admitted]
    refine ⟨Bool.eq_false_of_not_eq_true fun failed => admitted (.inr failed), ?_⟩
    split
    · rename_i reached
      exact .inl ⟨rfl, reached⟩
    · exact .inr rfl

/-- What the condition says about a call that has to wait. -/
theorem waits_of_syncSafe {db : Db} (whole : (db.log disk).Ok)
    (sync : (db.log disk).SyncOk) (noError : db.backgroundWriteError = false)
    (started : db.syncStart ≠ .error) (safe : db.SyncSafe) :
    (db.log disk).Waits db.acknowledged db.store.lastVisibleSequence := by
  have state : ∀ request ∈ db.acknowledged, request ∈ db.pendingWrites ∨
      request ∈ db.service.unsynced ∨ (db.log disk).Safe request.frame := by
    intro request acked
    refine (sync.acknowledged request acked).resolve_left ?_
    rw [show (db.log disk).backgroundWriteError = false from noError]
    simp
  have behindQueue : (∃ request ∈ db.pendingWrites,
      request.sequence = db.store.lastVisibleSequence) →
      (db.log disk).Waits db.acknowledged db.store.lastVisibleSequence := by
    rintro ⟨request, member, top⟩
    have waiting : request ∈ db.tickets ++ db.pendingWrites := mem_append_right _ member
    have below : db.lastDurableSequence < db.store.lastVisibleSequence :=
      lt_of_le_of_ne sync.durable fun same =>
        sync.fresh request (mem_append_left _ waiting) (top.trans same.symm)
    refine .inr (.inr ⟨below, .inr (.inr ⟨⟨request, member, top⟩, ?_, state⟩)⟩)
    intro other inGroup
    have inGroup := ServiceStage.unsynced_subset inGroup
    have le := whole.sequences.applied other (mem_append_right _ inGroup)
    have apart := whole.sequences.waiting_ne_group waiting inGroup
    exact lt_of_le_of_ne le fun same => apart (top.trans same.symm)
  rcases safe with error | ⟨failed, below⟩ | queued | ⟨flushed, below | groupFlushed⟩
  · exact absurd error started
  · exact .inr (.inr ⟨below, .inl failed⟩)
  · exact behindQueue queued
  · rcases sync.visible with failed | reached | ⟨request, member, top⟩
    · rw [show (db.log disk).backgroundWriteError = false from noError] at failed
      contradiction
    · exact absurd reached (not_le.mpr below)
    · rcases mem_append.mp member with queued | inGroup
      · exact behindQueue ⟨request, queued, top⟩
      · refine .inr (.inr ⟨below, .inr (.inl ⟨⟨request, inGroup, top⟩, ?_⟩)⟩)
        intro other acked
        rcases state other acked with queued | inGroup | isSafe
        · exact .inr (.inl (flushed other queued acked))
        · exact .inl inGroup
        · exact .inr isSafe
  · refine .inr (.inl fun request acked => ?_)
    rcases state request acked with queued | inGroup | isSafe
    · exact .inl (flushed request queued acked)
    · exact .inl (groupFlushed request inGroup acked)
    · exact isSafe

theorem guarantee_of_syncSafe {world : World} {db : Db} (ok : world.SyncOk)
    (opened : world.db = some db) (safe : db.SyncSafe) : world.SyncGuarantee db := by
  obtain ⟨whole, sync⟩ := ok.log opened
  have state : ∀ request ∈ db.acknowledged, db.backgroundWriteError = true ∨
      request ∈ db.pendingWrites ∨ request ∈ db.service.unsynced ∨
        (db.log world.disk).Safe request.frame := sync.acknowledged
  constructor
  · intro start request acked
    obtain ⟨noError, cases⟩ := syncStart_cases (by rw [start]; simp)
    rw [start] at cases
    obtain ⟨-, reached, empty⟩ : _ ∧ db.store.lastVisibleSequence ≤ db.lastDurableSequence ∧
        db.pendingWrites = [] := cases.resolve_right (by simp)
    have flushed : db.Flushed db.service.unsynced := by
      rcases safe with error | ⟨-, below⟩ | ⟨queued, member, -⟩ | ⟨-, below | flushed⟩
      · rw [start] at error
        contradiction
      · omega
      · rw [empty] at member
        contradiction
      · omega
      · exact flushed
    rcases state request acked with failed | queued | inGroup | isSafe
    · rw [noError] at failed
      contradiction
    · rw [empty] at queued
      contradiction
    · exact World.secured_of_safe whole (.inl (flushed request inGroup acked))
    · exact World.secured_of_safe whole isSafe
  · intro target start later after reached afterOpened answered request acked
    obtain ⟨noError, cases⟩ := syncStart_cases (by rw [start]; simp)
    rw [start] at cases
    obtain rfl : target = db.store.lastVisibleSequence := by simpa using cases
    have waits := waits_of_syncSafe whole sync noError (by rw [start]; simp) safe
    obtain ⟨laterOk, after', opened', waits⟩ := World.waits_later ok opened waits reached
    rw [afterOpened] at opened'
    cases opened'
    simp only [Db.syncReturnsOk, Bool.and_eq_true, Bool.not_eq_true', decide_eq_true_eq] at answered
    rcases waits with failed | allSafe | ⟨below, -⟩
    · rw [show after.backgroundWriteError = true from failed] at answered
      exact absurd answered.1 (by simp)
    · exact World.secured_of_safe (laterOk.log afterOpened).1 (allSafe request acked)
    · exact absurd answered.2 (not_le.mpr below)

/-- A continuation in which the group in commit becomes durable and nothing else
happens. -/
def World.GroupFinishes (world : World) (db : Db) (target : Nat) : Prop :=
  ∃ later after, Reaches World.step World.SameSession world later ∧ later.db = some after ∧
    target ≤ after.lastDurableSequence ∧ after.backgroundWriteError = db.backgroundWriteError ∧
    after.pendingWrites = db.pendingWrites ∧ later.disk.persisted = world.disk.persisted

theorem groupFinishes_of_step {world next : World} {db after : Db} {target : Nat} (action : Action)
    (permitted : world.SameSession action) (stepped : world.step action = some next)
    (error : after.backgroundWriteError = db.backgroundWriteError)
    (pending : after.pendingWrites = db.pendingWrites)
    (persisted : next.disk.persisted = world.disk.persisted)
    (finishes : next.GroupFinishes after target) : world.GroupFinishes db target := by
  obtain ⟨later, last, reached, opened, durable, error', pending', persisted'⟩ := finishes
  exact ⟨later, last, (Reaches.next .refl permitted stepped).trans reached, opened,
    durable, error'.trans error, pending'.trans pending, persisted'.trans persisted⟩

theorem groupFinishes_appended {world : World}
    (opened : world.db = some db) (stage : db.service = .appended group target) :
    world.GroupFinishes db target := by
  have stepped : world.step (.syncWal true) = some (world.withDisk
      (world.disk.syncWal db.activeWalFileId,
        { db with
          lastDurableSequence := max db.lastDurableSequence target
          service := .committed group target })) := by
    simp only [World.step, opened, World.stepDb, Db.syncWal, stage]
    rfl
  have permitted : world.SameSession (.syncWal true) := ⟨(by simp), (by simp)⟩
  exact ⟨_, _, .next .refl permitted stepped, rfl, le_max_right _ _, rfl, rfl, rfl⟩

theorem groupFinishes_opened {world : World} {db : Db} {group : List Request} {target : Nat}
    (opened : world.db = some db) (stage : db.service = .opened group target) :
    world.GroupFinishes db target := by
  have stepped : ∃ disk after, world.step (.appendWal none) = some (world.withDisk (disk, after)) ∧
      after.service = .appended group target ∧
      after.backgroundWriteError = db.backgroundWriteError ∧
      after.pendingWrites = db.pendingWrites ∧ disk.persisted = world.disk.persisted := by
    simp only [World.step, opened, World.stepDb, Db.appendWal, stage, Option.map_some]
    exact ⟨_, _, rfl, rfl, rfl, rfl, rfl⟩
  obtain ⟨disk, after, stepped, appended, error, pending, persisted⟩ := stepped
  exact groupFinishes_of_step (.appendWal none) ⟨(by simp), (by simp)⟩ stepped error pending persisted
    (groupFinishes_appended rfl appended)

theorem groupFinishes_drained {world : World} {db : Db} {group : List Request} {target : Nat}
    (opened : world.db = some db) (stage : db.service = .drained group target)
    (noError : db.backgroundWriteError = false) : world.GroupFinishes db target := by
  have stepped : ∃ disk after, world.step (.openWal true) = some (world.withDisk (disk, after)) ∧
      after.service = .opened group target ∧
      after.backgroundWriteError = db.backgroundWriteError ∧
      after.pendingWrites = db.pendingWrites ∧ disk.persisted = world.disk.persisted := by
    simp only [World.step, opened, World.stepDb, Db.openActiveWal, stage, noError,
      Bool.false_eq_true, if_false, if_true]
    split
    · exact ⟨_, _, rfl, rfl, rfl, rfl, rfl⟩
    · exact ⟨_, _, rfl, rfl, rfl, rfl, rfl⟩
  obtain ⟨disk, after, stepped, isOpened, error, pending, persisted⟩ := stepped
  exact groupFinishes_of_step (.openWal true) ⟨(by simp), (by simp)⟩ stepped error pending persisted
    (groupFinishes_opened rfl isOpened)

theorem flushed_pending {world : World} {db : Db} (whole : (db.log world.disk).Ok)
    (secured : world.Secured request.frame) (queued : request ∈ db.pendingWrites) :
    ∃ manifest, world.disk.persisted = some manifest ∧ request.frame ∈ manifest.frames := by
  refine secured.resolve_left ?_
  rintro ⟨walId, held⟩
  have waits : request ∈ db.tickets ++ db.pendingWrites ++ db.service.unlogged :=
    mem_append_left _ (mem_append_right _ queued)
  exact whole.sequences.unlogged request waits request.frame
    (.inl ⟨walId, mem_append_left _ held⟩) rfl

theorem flushed_unsynced {world : World} {db : Db} (whole : (db.log world.disk).Ok)
    (secured : world.Secured request.frame) (inGroup : request ∈ db.service.unsynced) :
    ∃ manifest, world.disk.persisted = some manifest ∧ request.frame ∈ manifest.frames := by
  refine secured.resolve_left ?_
  rintro ⟨walId, held⟩
  exact whole.sequences.unsynced request inGroup walId request.frame held rfl

theorem syncSafe_of_guarantee {world : World} {db : Db} (ok : world.SyncOk)
    (opened : world.db = some db) (agrees : world.PersistedAgrees db)
    (guarantee : world.SyncGuarantee db) : db.SyncSafe := by
  obtain ⟨whole, sync⟩ := ok.log opened
  by_cases started : db.syncStart = .error
  · exact .inl started
  by_cases queuedTop : ∃ request ∈ db.pendingWrites,
      request.sequence = db.store.lastVisibleSequence
  · exact .inr (.inr (.inl queuedTop))
  obtain ⟨noError, cases⟩ := syncStart_cases started
  rcases Nat.lt_or_ge db.lastDurableSequence db.store.lastVisibleSequence with below | reached
  · by_cases failed : ∃ group, db.service = .failed group
    · exact .inr (.inl ⟨failed, below⟩)
    refine .inr (.inr (.inr ⟨?_, .inl below⟩))
    have start : db.syncStart = .wait db.store.lastVisibleSequence :=
      cases.resolve_left fun immediate => absurd immediate.2.1 (not_le.mpr below)
    -- the sequence waited for is in commit; let that group finish first
    have inCommit : ∃ request ∈ db.service.unsynced,
        request.sequence = db.store.lastVisibleSequence := by
      rcases sync.visible with error | reached | ⟨request, member, top⟩
      · rw [show (db.log world.disk).backgroundWriteError = false from noError] at error
        contradiction
      · exact absurd reached (not_le.mpr below)
      · rcases mem_append.mp member with queued | inGroup
        · exact absurd ⟨request, queued, top⟩ queuedTop
        · exact ⟨request, inGroup, top⟩
    have finishes : ∃ target, db.store.lastVisibleSequence ≤ target ∧
        world.GroupFinishes db target := by
      obtain ⟨request, inGroup, top⟩ := inCommit
      have bounded : ∀ target, db.service.target? = some target →
          db.store.lastVisibleSequence ≤ target := fun target found =>
        top ▸ (sync.target target found).1 request (ServiceStage.unsynced_subset inGroup)
      cases stage : db.service with
      | drained group target =>
        exact ⟨target, bounded target (by rw [stage]; rfl), groupFinishes_drained opened stage noError⟩
      | opened group target =>
        exact ⟨target, bounded target (by rw [stage]; rfl), groupFinishes_opened opened stage⟩
      | appended group target =>
        exact ⟨target, bounded target (by rw [stage]; rfl), groupFinishes_appended opened stage⟩
      | failed group => exact absurd ⟨group, stage⟩ failed
      | committed | idle | stopped =>
        rw [stage] at inGroup
        contradiction
    obtain ⟨target, covers, later, after, run, laterOpened, durable, error, pending, persisted⟩ :=
      finishes
    have answered : after.syncReturnsOk db.store.lastVisibleSequence = true := by
      simp only [Db.syncReturnsOk, error, noError, Bool.not_false, Bool.true_and,
        decide_eq_true_eq]
      exact covers.trans durable
    intro request queued acked
    have secured := guarantee.2 _ start later after run laterOpened answered request acked
    obtain ⟨manifest, found, carried⟩ :=
      flushed_pending ((ok.of_reaches run).log laterOpened).1 secured (pending.symm ▸ queued)
    exact agrees manifest (persisted ▸ found) _ carried
  · have secured : ∀ request ∈ db.acknowledged, world.Secured request.frame := by
      rcases cases with ⟨start, -⟩ | start
      · exact guarantee.1 start
      · refine guarantee.2 _ start world db .refl opened ?_
        simp only [Db.syncReturnsOk, noError, Bool.not_false, Bool.true_and, decide_eq_true_eq]
        exact reached
    refine .inr (.inr (.inr ⟨?_, .inr ?_⟩))
    · intro request queued acked
      obtain ⟨manifest, found, carried⟩ := flushed_pending whole (secured request acked) queued
      exact agrees manifest found _ carried
    · intro request inGroup acked
      obtain ⟨manifest, found, carried⟩ := flushed_unsynced whole (secured request acked) inGroup
      exact agrees manifest found _ carried

/-- In every reachable state of an open process, a `sync` called there guarantees what it
promises when the queue is as `SyncSafe` says, and only then: the converse holds unless
a save failed at `CURRENT`. -/
theorem sync_guarantee_iff {world : World} {db : Db}
    (reached : Reaches World.step (fun _ _ => True) World.initial world)
    (opened : world.db = some db) :
    (db.SyncSafe → world.SyncGuarantee db) ∧
      (world.PersistedAgrees db → (world.SyncGuarantee db ↔ db.SyncSafe)) := by
  have ok := World.SyncOk.initial.of_reaches reached
  exact ⟨guarantee_of_syncSafe ok opened, fun agrees =>
    ⟨syncSafe_of_guarantee ok opened agrees, guarantee_of_syncSafe ok opened⟩⟩

def lazyWrites : Options :=
  { lazyWrite := true, memTableBytes := 100, inlineBlobThresholdBytes := 100 }

/-- The ticket of the first batch waits while the second one, with the higher sequence,
is applied and committed; then the first is applied and acknowledged. -/
def overtakenRun : List Action :=
  [.openDb lazyWrites, .submit [.put [1] [1] ∅], .submit [.put [2] [1] ∅], .apply 1, .drain,
    .openWal true, .appendWal none, .syncWal true, .finalize, .apply 0]

theorem World.secured_listed {world : World} (secured : world.Secured frame) :
    (∃ file ∈ world.disk.wals.entries, frame ∈ file.2.synced) ∨
      ∃ manifest ∈ world.disk.persisted, frame ∈ manifest.frames := by
  refine secured.imp ?_ id
  rintro ⟨walId, held⟩
  rw [Disk.wal] at held
  cases found : world.disk.wals.find? walId with
  | none =>
    rw [found] at held
    contradiction
  | some file =>
    rw [found] at held
    exact ⟨(walId, file), SortedMap.find?_eq_some_iff.mp found, held⟩

/-- `sync` returns Ok although the first write, acknowledged, is only in the queue. -/
theorem sync_misses_overtaken_write :
    ∃ world db, World.run overtakenRun = some world ∧ world.db = some db ∧
      ¬ world.SyncGuarantee db := by
  have missed : ∃ world db, World.run overtakenRun = some world ∧ world.db = some db ∧
      (db.syncStart = .wait 2 ∧ db.syncReturnsOk 2 = true ∧ ∃ request ∈ db.acknowledged,
        ¬ ((∃ file ∈ world.disk.wals.entries, request.frame ∈ file.2.synced) ∨
          ∃ manifest ∈ world.disk.persisted, request.frame ∈ manifest.frames)) :=
    World.exists_of_run (by decide +kernel)
  obtain ⟨world, db, ran, opened, start, answered, request, acked, absent⟩ := missed
  refine ⟨world, db, ran, opened, fun guarantee => absent ?_⟩
  exact World.secured_listed (guarantee.2 2 start world db .refl opened answered request acked)

/-- Here the second write waits in the queue too, and the wait covers both. -/
def queuedRun : List Action :=
  [.openDb lazyWrites, .submit [.put [1] [1] ∅], .submit [.put [2] [1] ∅], .apply 1, .apply 0]

def queuedWorld : World := (World.run queuedRun).getD World.initial

theorem sync_guarantee_queuedWorld :
    queuedWorld.SyncGuarantee (queuedWorld.db.get (by decide +kernel)) :=
  (sync_guarantee_iff (Reaches.of_foldlM (fun _ _ => trivial)
    (show World.run queuedRun = some queuedWorld by decide +kernel)) (Option.some_get _).symm).1
    (.inr (.inr (.inl (by decide +kernel))))

end SwStack.EmbeddedDb
