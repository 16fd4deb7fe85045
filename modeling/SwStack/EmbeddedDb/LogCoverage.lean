import SwStack.EmbeddedDb.LogSequences

/-! Where a frame is. A logged frame that a memtable carries lies in a log file that
exists and is not below the memtable's log, and while the database is open every frame
of the pipeline is carried by a memtable or a table. -/
open List hiding after

namespace SwStack.EmbeddedDb

open SwStack.Lib

namespace LogState

/-- The frame has been applied and queued, or logged. -/
def Accepted (state : LogState) (frame : Frame) : Prop :=
  (∃ walId, (walId, frame) ∈ state.walFrames) ∨
    ∃ request ∈ state.pendingWrites ++ state.service.group, request.frame = frame

/-- The log files still hold what `mem` would lose in a crash. -/
def Guards (state : LogState) (mem : MemLog) : Prop :=
  (∀ walId frame, (walId, frame) ∈ state.walFrames → frame ∈ mem.frames →
    mem.walId ≤ walId ∧ frame ∈ (state.wal walId).frames) ∧
  ∀ group target, state.service = .opened group target → ∀ request ∈ group,
    request.frame ∈ mem.frames → mem.walId ≤ state.activeWalFileId

theorem guards_of_empty {state : LogState} (empty : mem.frames = []) : state.Guards mem := by
  constructor
  · intro walId frame _ held
    rw [empty] at held
    contradiction
  · intro group target _ request _ held
    rw [empty] at held
    contradiction

end LogState

structure LogState.CoverageOk (state : LogState) : Prop where
  notClosing : state.closing = false →
    state.held = [] ∧ state.stopping = false ∧ state.closeFlush = none
  guarded : ∀ mem ∈ state.mems, state.Guards mem
  covered : state.closing = false → ∀ frame, state.Accepted frame →
    frame ∈ state.store.manifest.frames ∨ state.Resident frame
  flushing : ∀ mem done, state.flushing = some (mem, done) →
    state.store.immutables.head? = some mem ∨
      state.closing = true ∧ state.store.immutables = []
  installed : ∀ mem, state.flushing = some (mem, true) →
    ∀ frame ∈ mem.frames, frame ∈ state.store.manifest.frames
  persisted : ∃ manifest, state.persisted = some manifest ∧
    ∀ frame ∈ state.store.manifest.frames, frame ∈ manifest.frames
  appended : ∀ group target, state.service = .appended group target → ∀ request ∈ group,
    request.frame ∈ (state.wal state.activeWalFileId).frames ∧
      (state.activeWalFileId, request.frame) ∈ state.walFrames
  stopped : state.service = .stopped → state.backgroundWriteError = true ∨ state.stopping = true
  closeFlush : ∀ mem, state.closeFlush = some mem → ∀ held ∈ state.held,
    ∀ frame ∈ held.frames, frame ∈ mem.frames

namespace LogState.CoverageOk

variable {state next : LogState}

theorem resident_of_applied (resident : state.Resident frame) (index : Nat) (request : Request) :
    (state.applied index request).Resident frame := by
  obtain ⟨mem, member, held⟩ := resident
  rcases mem_cons.mp member with rfl | member
  · exact ⟨_, mem_cons_self, mem_append_left _ held⟩
  · exact ⟨mem, mem_cons_of_mem _ member, held⟩

theorem walId_applied (ids : state.IdsOk) (index : Nat) (request : Request) :
    (state.applied index request).store.mutable.walId = state.store.mutable.walId := by
  obtain ⟨set, le⟩ := ids.mems _ mem_cons_self
  have unchanged : ¬ (state.store.mutable.walId = 0 ∨
      state.store.manifest.activeWalId < state.store.mutable.walId) := by omega
  simp only [LogState.applied, StoreLog.applied, MemLog.noteFrame, if_neg unchanged]

theorem applied_step (ok : state.CoverageOk) (ids : state.IdsOk) (sequences : state.SequencesOk)
    (found : state.tickets[index]? = some request) :
    (state.applied index request).CoverageOk := by
  have ticket : request ∈ state.tickets := mem_of_getElem? found
  have waits : request ∈ state.tickets ++ state.pendingWrites := mem_append_left _ ticket
  refine { ok with guarded := ?_, covered := ?_ }
  · intro mem member
    rcases mem_cons.mp member with rfl | member
    · have old := ok.guarded _ mem_cons_self
      have sameId := walId_applied ids index request
      constructor
      · intro walId frame listed held
        rcases mem_append.mp held with held | held
        · exact sameId ▸ old.1 walId frame listed held
        · -- a ticket's frame is in no log yet
          have fresh := sequences.unlogged request (mem_append_left _ waits) frame
            (.inr ⟨walId, listed⟩)
          exact absurd (congrArg Frame.sequence (mem_singleton.mp held)) fresh
      · intro group target opened other taken held
        rcases mem_append.mp held with held | held
        · exact sameId ▸ old.2 group target opened other taken held
        · have apart := sequences.waiting_ne_group waits
            (by rw [show state.service = _ from opened]; exact taken)
          exact absurd (congrArg Frame.sequence (mem_singleton.mp held)).symm apart
    · have old := ok.guarded mem (mem_cons_of_mem _ member)
      exact ⟨old.1, old.2⟩
  · intro notClosing frame accepted
    have cases : state.Accepted frame ∨ frame = request.frame := by
      rcases accepted with listed | ⟨other, member, rfl⟩
      · exact .inl (.inl listed)
      · simp only [LogState.applied, append_assoc, mem_append, mem_singleton]
          at member
        rcases member with member | rfl | member
        · exact .inl (.inr ⟨other, mem_append_left _ member, rfl⟩)
        · exact .inr rfl
        · exact .inl (.inr ⟨other, mem_append_right _ member, rfl⟩)
    rcases cases with accepted | rfl
    · exact (ok.covered notClosing frame accepted).imp_right
        fun resident => resident_of_applied resident index request
    · exact .inr ⟨_, mem_cons_self, mem_append_right _ (mem_singleton_self _)⟩

theorem rotated_step (ok : state.CoverageOk) (notClosing : state.closing = false) :
    state.rotated.CoverageOk := by
  refine { ok with guarded := ?_, covered := ?_, flushing := ?_ }
  · intro mem member
    rcases LogState.mem_rotated member with rfl | member
    · exact LogState.guards_of_empty rfl
    · have old := ok.guarded mem member
      exact ⟨old.1, old.2⟩
  · intro _ frame accepted
    refine (ok.covered notClosing frame accepted).imp_right ?_
    rintro ⟨mem, member, held⟩
    refine ⟨mem, ?_, held⟩
    simp only [LogState.mems, LogState.rotated, StoreLog.rotated, cons_append,
      append_assoc, nil_append, mem_cons, mem_append] at member ⊢
    tauto
  · intro mem done flushing
    rcases ok.flushing mem done flushing with head | ⟨closing, -⟩
    · left
      simp only [LogState.rotated, StoreLog.rotated, head?_append, head, Option.some_or]
    · rw [notClosing] at closing
      contradiction

theorem restage (ok : state.CoverageOk) (service : ServiceStage) (pending : List Request)
    (accepted : ∀ request ∈ pending ++ service.group,
      request ∈ state.pendingWrites ++ state.service.group)
    (opened : ∀ group target, service = .opened group target → ∀ mem ∈ state.mems,
      mem.walId ≤ state.activeWalFileId)
    (appended : ∀ group target, service ≠ .appended group target)
    (stopped : service = .stopped → state.backgroundWriteError = true ∨ state.stopping = true) :
    { state with service, pendingWrites := pending }.CoverageOk := by
  refine { ok with guarded := ?_, covered := ?_, appended := ?_, stopped := ?_ }
  · intro mem member
    exact ⟨(ok.guarded mem member).1, fun group target isOpened _ _ _ =>
      opened group target isOpened mem member⟩
  · intro notClosing frame cases
    refine ok.covered notClosing frame ?_
    rcases cases with listed | ⟨request, member, same⟩
    · exact .inl listed
    · exact .inr ⟨request, accepted request member, same⟩
  · intro group target isAppended
    exact absurd isAppended (appended group target)
  · exact stopped

theorem reopened (ok : state.CoverageOk) (walId : Nat)
    (notAppended : ∀ group target, state.service ≠ .appended group target)
    (notOpened : ∀ group target, state.service ≠ .opened group target) :
    { state with
      wals := state.wals.insert walId (state.wal walId), activeWalFileId := walId }.CoverageOk := by
  refine { ok with guarded := ?_, appended := ?_ }
  · intro mem member
    constructor
    · intro other frame listed held
      obtain ⟨le, present⟩ := (ok.guarded mem member).1 other frame listed held
      refine ⟨le, ?_⟩
      rw [LogState.wal_eq, walIn_insert]
      split
      · rename_i same
        exact same ▸ present
      · exact present
    · intro group target opened
      exact absurd opened (notOpened group target)
  · intro group target appended
    exact absurd appended (notAppended group target)

theorem appended_step (ok : state.CoverageOk) (opened : state.service = .opened group target) :
    (state.appended group target failAfter).CoverageOk := by
  have taken : state.service.group = group := by rw [opened]; rfl
  have grows : ∀ walId, ∀ frame ∈ (state.wal walId).frames,
      frame ∈ ((state.appended group target failAfter).wal walId).frames := by
    intro walId frame held
    rw [LogState.wal_eq]
    simp only [LogState.appended, walIn_insert]
    split
    · rename_i same
      subst same
      simp only [WalFile.frames, ← append_assoc]
      exact mem_append_left _ held
    · exact held
  have written : ∀ frame ∈ appendedFrames group failAfter,
      frame ∈ ((state.appended group target failAfter).wal state.activeWalFileId).frames := by
    intro frame member
    rw [LogState.wal_eq]
    simp only [LogState.appended, walIn_insert, if_pos]
    exact mem_append_right _ (mem_append_right _ member)
  have fromGroup : ∀ frame ∈ appendedFrames group failAfter, ∃ request ∈ group,
      request.frame = frame := by
    intro frame member
    obtain ⟨request, member, same⟩ := mem_map.mp member
    exact ⟨request, mem_of_mem_take member, same⟩
  have stage : (state.appended group target failAfter).service =
      if failAfter.isNone then .appended group target else .failed group := rfl
  have sameGroup : (state.appended group target failAfter).service.group = group := by
    rw [stage]
    split <;> rfl
  refine { ok with guarded := ?_, covered := ?_, appended := ?_, stopped := ?_ }
  · intro mem member
    have old := ok.guarded mem member
    constructor
    · intro walId frame listed held
      rcases mem_append.mp listed with listed | listed
      · obtain ⟨le, present⟩ := old.1 walId frame listed held
        exact ⟨le, grows walId frame present⟩
      · obtain ⟨found, member, same⟩ := mem_map.mp listed
        cases same
        obtain ⟨request, inGroup, rfl⟩ := fromGroup _ member
        exact ⟨old.2 group target opened request inGroup held, written _ member⟩
    · intro other target' isOpened
      rw [stage] at isOpened
      split at isOpened <;> contradiction
  · intro notClosing frame accepted
    refine ok.covered notClosing frame ?_
    rcases accepted with ⟨walId, listed⟩ | ⟨request, member, same⟩
    · rcases mem_append.mp listed with listed | listed
      · exact .inl ⟨walId, listed⟩
      · obtain ⟨found, member, same⟩ := mem_map.mp listed
        cases same
        obtain ⟨request, inGroup, same⟩ := fromGroup _ member
        exact .inr ⟨request, mem_append_right _ (taken ▸ inGroup), same⟩
    · rw [sameGroup] at member
      exact .inr ⟨request, taken.symm ▸ member, same⟩
  · intro other target' isAppended request member
    rw [stage] at isAppended
    split at isAppended
    · rename_i whole
      cases isAppended
      have frames : request.frame ∈ appendedFrames group failAfter := by
        rw [Option.isNone_iff_eq_none.mp whole]
        simp only [appendedFrames, Option.getD_none, List.take_length]
        exact mem_map_of_mem member
      exact ⟨written _ frames,
        mem_append_right _ (mem_map.mpr ⟨request.frame, frames, rfl⟩)⟩
    · contradiction
  · intro isStopped
    rw [stage] at isStopped
    split at isStopped <;> contradiction

theorem synced_step (ok : state.CoverageOk) (appended : state.service = .appended group target) :
    (state.synced group target).CoverageOk := by
  have taken : state.service.group = group := by rw [appended]; rfl
  refine { ok with guarded := ?_, covered := ?_, appended := ?_, stopped := ?_ }
  · intro mem member
    constructor
    · intro walId frame listed held
      obtain ⟨le, present⟩ := (ok.guarded mem member).1 walId frame listed held
      refine ⟨le, ?_⟩
      rw [LogState.wal_eq]
      simp only [LogState.synced, walIn_insert]
      split
      · rename_i same
        subst same
        simpa only [WalFile.frames, append_nil] using present
      · exact present
    · intro other target' opened
      contradiction
  · intro notClosing frame accepted
    exact ok.covered notClosing frame (by rwa [LogState.Accepted, taken])
  · intro other target' isAppended
    contradiction
  · intro isStopped
    contradiction

theorem frames_installed (mem : MemLog) : ∀ frame ∈ state.store.manifest.frames,
    frame ∈ (state.store.installed mem).frames := fun _ held => mem_append_left _ held

theorem installed_step (ok : state.CoverageOk) (flushing : state.flushing = some (mem, false)) :
    { state.installed mem with flushing := some (mem, true) }.CoverageOk := by
  refine { ok with
    guarded := ?_, covered := ?_, flushing := ?_, installed := ?_, persisted := ?_ }
  · intro other member
    exact ok.guarded other member
  · intro notClosing frame accepted
    exact (ok.covered notClosing frame accepted).imp_left (frames_installed mem frame)
  · rintro _ _ ⟨⟩
    exact ok.flushing mem false flushing
  · rintro _ ⟨⟩ frame held
    exact mem_append_right _ held
  · exact ⟨_, rfl, fun _ held => held⟩

theorem cleaned_step (ok : state.CoverageOk) (ids : state.IdsOk)
    (notClosing : state.closing = false) : state.cleaned.CoverageOk := by
  obtain ⟨noneHeld, -, -⟩ := ok.notClosing notClosing
  have kept : ∀ walId, state.store.replayFrom ≤ walId ∨ walId = state.activeWalFileId →
      state.cleaned.wal walId = state.wal walId := by
    intro walId needed
    rw [LogState.wal_eq, LogState.wal_eq]
    refine walIn_filter _ _ _ fun file => ?_
    rcases needed with needed | rfl <;> simp
    omega
  refine { ok with guarded := ?_, covered := ?_, appended := ?_ }
  · intro mem member
    have old := ok.guarded mem member
    refine ⟨?_, old.2⟩
    intro walId frame listed held
    obtain ⟨le, present⟩ := old.1 walId frame listed held
    refine ⟨le, ?_⟩
    have live : mem ∈ state.store.mutable :: state.store.immutables := by
      have member : mem ∈ state.store.mutable :: state.store.immutables ++ state.held := member
      rwa [noneHeld, append_nil] at member
    have needed : state.store.replayFrom ≤ walId :=
      (StoreLog.replayFrom_le_mem live (ids.mems mem member).1).trans le
    rw [kept walId (.inl needed)]
    exact present
  · exact fun notClosing frame accepted => ok.covered notClosing frame accepted
  · intro group target appended request member
    have active : state.cleaned.wal state.cleaned.activeWalFileId =
        state.wal state.activeWalFileId := kept _ (.inr rfl)
    rw [active]
    exact ok.appended group target appended request member

theorem popped_step (ok : state.CoverageOk) (flushing : state.flushing = some (mem, true))
    (queued : state.store.immutables = first :: rest) :
    { state with
      store := { state.store with immutables := rest }, flushing := none }.CoverageOk := by
  have same : first = mem := by
    rcases ok.flushing mem true flushing with head | ⟨-, empty⟩
    · rw [queued] at head
      exact Option.some.inj head
    · rw [queued] at empty
      contradiction
  refine { ok with guarded := ?_, covered := ?_, flushing := ?_, installed := ?_ }
  · intro other member
    have old := ok.guarded other (by
      simp only [LogState.mems, queued, cons_append, mem_cons, mem_append]
        at member ⊢
      tauto)
    exact ⟨old.1, old.2⟩
  · intro notClosing frame accepted
    rcases ok.covered notClosing frame accepted with carried | ⟨other, member, held⟩
    · exact .inl carried
    · simp only [LogState.mems, queued, cons_append, mem_cons, mem_append] at member
      have cases : other = first ∨
          other ∈ state.store.mutable :: rest ++ state.held := by
        simp only [cons_append, mem_cons, mem_append]
        tauto
      rcases cases with rfl | member
      · subst same
        exact .inl (ok.installed other flushing frame held)
      · exact .inr ⟨other, member, held⟩
  · intro other done never
    contradiction
  · intro other never
    contradiction

theorem saved (ok : state.CoverageOk) {manifest : ManifestLog}
    (grows : ∀ frame ∈ state.store.manifest.frames, frame ∈ manifest.frames)
    (saves : Saves manifest state.persisted outcome after) :
    { state with persisted := after }.CoverageOk := by
  refine { ok with guarded := ?_, covered := ok.covered, persisted := ?_ }
  · intro mem member
    have old := ok.guarded mem member
    exact ⟨old.1, old.2⟩
  · rcases saves.cases with rfl | rfl
    · exact ⟨manifest, rfl, grows⟩
    · exact ok.persisted

theorem taken_step (ok : state.CoverageOk) (closing : state.closing = true) {held : List MemLog}
    (old : ∀ mem ∈ held, mem ∈ state.mems) {closeFlush : Option MemLog}
    (covers : ∀ mem, closeFlush = some mem → ∀ part ∈ held, ∀ frame ∈ part.frames,
      frame ∈ mem.frames) : { state.taken held with closeFlush }.CoverageOk := by
  refine { ok with
    notClosing := ?_, guarded := ?_, covered := ?_, flushing := ?_, closeFlush := covers }
  · intro notClosing
    rw [show state.closing = _ from notClosing] at closing
    contradiction
  · intro mem member
    rcases mem_cons.mp member with rfl | member
    · exact LogState.guards_of_empty rfl
    · have guards := ok.guarded mem (old mem member)
      exact ⟨guards.1, guards.2⟩
  · intro notClosing
    rw [show state.closing = _ from notClosing] at closing
    contradiction
  · intro mem done _
    exact .inr ⟨closing, rfl⟩

theorem step (ok : state.CoverageOk) (ids : state.IdsOk) (sequences : state.SequencesOk)
    (stepped : LogStep state action next) : next.CoverageOk := by
  cases stepped with
  | quiet => exact ok
  | submit => exact { ok with }
  | refuse => exact { ok with }
  | apply found notClosing _ => exact ok.applied_step ids sequences found
  | applyRotate found notClosing _ =>
    exact (ok.applied_step ids sequences found).rotated_step notClosing
  | drain idle _ =>
    refine ok.restage _ _ ?_ ?_ ?_ ?_
    · intro request member
      exact mem_append_left _ member
    all_goals simp
  | openFails drained =>
    refine ok.restage _ _ ?_ ?_ ?_ ?_
    · rw [drained]
      exact fun _ member => member
    all_goals simp
  | openSame drained same =>
    refine ok.restage _ _ ?_ ?_ ?_ ?_
    · rw [drained]
      exact fun _ member => member
    · intro _ _ _ mem member
      rw [same]
      exact (ids.mems mem member).2
    all_goals simp
  | openNext drained =>
    have switched := ok.reopened state.store.manifest.activeWalId
      (by rw [drained]; simp) (by rw [drained]; simp)
    refine switched.restage _ _ ?_ ?_ ?_ ?_
    · rw [drained]
      exact fun _ member => member
    · intro _ _ _ mem member
      exact (ids.mems mem member).2
    all_goals simp
  | append opened => exact ok.appended_step opened
  | sync appended => exact ok.synced_step appended
  | syncFails appended =>
    refine ok.restage _ _ ?_ ?_ ?_ ?_
    · rw [appended]
      exact fun _ member => member
    all_goals simp
  | answer committed =>
    refine { ok.restage .idle state.pendingWrites ?_ ?_ ?_ ?_ with }
    · intro request member
      rw [ServiceStage.group, append_nil] at member
      exact mem_append_left _ member
    all_goals simp
  | stop failed =>
    have flagged : { state with backgroundWriteError := true }.CoverageOk :=
      { ok with stopped := fun _ => .inl rfl }
    refine flagged.restage .stopped state.pendingWrites ?_ ?_ ?_ fun _ => .inl rfl
    · intro request member
      rw [ServiceStage.group, append_nil] at member
      exact mem_append_left _ member
    all_goals simp
  | flushTake notClosing queued =>
    refine { ok with flushing := ?_, installed := ?_ }
    · rintro _ _ ⟨⟩
      left
      rw [queued]
      rfl
    · rintro _ ⟨⟩
  | flushEnds =>
    exact { ok with flushing := by simp, installed := by simp }
  | install flushing _ => exact ok.installed_step flushing
  | installClean flushing notClosing =>
    exact (ok.installed_step flushing).cleaned_step { ids.installed _ with } notClosing
  | @installFails mem _ _ _ _ saves =>
    exact { ok.saved (frames_installed mem) saves with
      flushing := by simp, installed := by simp }
  | pop rest flushing queued => exact ok.popped_step flushing queued
  | save saves => exact ok.saved (fun _ held => held) saves
  | closeBegin =>
    refine { ok with notClosing := ?_, covered := ?_, flushing := ?_ }
    · rintro ⟨⟩
    · rintro ⟨⟩
    · intro mem done flushing
      exact (ok.flushing mem done flushing).imp_right fun empty => ⟨rfl, empty.2⟩
  | closeStop _ closing _ =>
    have flagged : { state with stopping := true }.CoverageOk :=
      { ok with
        notClosing := fun notClosing => by
          rw [show state.closing = _ from notClosing] at closing
          contradiction
        stopped := fun _ => .inr rfl }
    refine flagged.restage .stopped [] ?_ ?_ ?_ fun _ => .inr rfl
    all_goals simp [ServiceStage.group]
  | closeTake kept merged closing _ _ cases covers =>
    refine ok.taken_step closing ?_ ?_
    · intro mem member
      simp only [LogState.mems, cons_append, mem_cons, mem_append]
      rcases mem_append.mp member with member | member
      · exact .inr (.inl member)
      · rcases cases with rfl | rfl
        · contradiction
        · exact .inl (mem_singleton.mp member)
    · rintro _ ⟨⟩
      exact covers
  | closeTakeNone closing _ _ saves =>
    have taken : { state.taken [] with closeFlush := state.closeFlush }.CoverageOk :=
      ok.taken_step closing (forall_mem_nil _) (fun _ _ => forall_mem_nil _)
    exact taken.saved (fun _ held => held) saves
  | closeFails =>
    exact { ok with
      notClosing := fun notClosing => ⟨(ok.notClosing notClosing).1, (ok.notClosing notClosing).2.1, rfl⟩
      closeFlush := by simp }
  | @closeInstall mem closeFlush closing =>
    have stillClosing : ¬ state.closing = false := by rw [closing]; simp
    refine { ok with
      notClosing := fun notClosing => absurd notClosing stillClosing
      guarded := ?_
      covered := fun notClosing => absurd notClosing stillClosing
      installed := fun other flushing frame held =>
        frames_installed mem frame (ok.installed other flushing frame held)
      persisted := ⟨_, rfl, fun _ held => held⟩, closeFlush := by simp }
    intro other member
    rw [LogState.mems, append_nil] at member
    exact ok.guarded other (mem_append_left _ member)
  | @closeInstallFails mem _ _ _ _ saves =>
    have after := ok.saved (frames_installed mem) saves
    exact { after with
      notClosing := fun notClosing =>
        ⟨(after.notClosing notClosing).1, (after.notClosing notClosing).2.1, rfl⟩
      closeFlush := by simp }

end LogState.CoverageOk
end SwStack.EmbeddedDb
