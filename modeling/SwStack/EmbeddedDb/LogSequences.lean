import SwStack.EmbeddedDb.LogMachine

/-! Log file ids. Ids start at 1, no memtable and no open log file is ahead of the
active log, and the log a replay would start from is not ahead of it either. -/
open List hiding after

namespace SwStack.EmbeddedDb

open SwStack.Lib

theorem foldl_min_le (mems : List MemLog) (start : Nat) :
    mems.foldl (fun start mem => if mem.walId ≠ 0 then min start mem.walId else start) start ≤
      start := by
  induction mems generalizing start with
  | nil => exact le_refl _
  | cons mem rest ih =>
    refine (ih _).trans ?_
    show (if mem.walId ≠ 0 then min start mem.walId else start) ≤ start
    split
    · exact min_le_left _ _
    · exact le_refl _

theorem foldl_min_le_of_mem {mems : List MemLog} (member : mem ∈ mems) (set : 0 < mem.walId)
    (start : Nat) :
    mems.foldl (fun start mem => if mem.walId ≠ 0 then min start mem.walId else start) start ≤
      mem.walId := by
  induction mems generalizing start with
  | nil => contradiction
  | cons first rest ih =>
    rcases mem_cons.mp member with rfl | member
    · refine (foldl_min_le rest _).trans ?_
      show (if mem.walId ≠ 0 then min start mem.walId else start) ≤ mem.walId
      rw [if_pos set.ne']
      exact min_le_right _ _
    · exact ih member _

variable {store : StoreLog}

theorem StoreLog.replayFrom_le_active (set : 0 < store.manifest.activeWalId) :
    store.replayFrom ≤ store.manifest.activeWalId := by
  refine (foldl_min_le _ _).trans ?_
  rw [if_neg set.ne']

theorem StoreLog.replayFrom_le_mem
    (member : mem ∈ store.mutable :: store.immutables) (set : 0 < mem.walId) :
    store.replayFrom ≤ mem.walId := foldl_min_le_of_mem member set _

theorem Saves.cases (saves : Saves manifest before outcome after) :
    after = some manifest ∨ after = before := by
  cases saves with
  | ok => exact .inl rfl
  | kept _ => exact .inr rfl
  | replaced => exact .inl rfl

def walIn (wals : SortedMap Nat WalFile) (walId : Nat) : WalFile :=
  (wals.find? walId).getD WalFile.empty

theorem LogState.wal_eq (state : LogState) (walId : Nat) :
    state.wal walId = walIn state.wals walId := rfl

theorem walIn_insert (wals : SortedMap Nat WalFile) (walId other : Nat) (file : WalFile) :
    walIn (wals.insert walId file) other = if other = walId then file else walIn wals other := by
  simp only [walIn, SortedMap.find?_insert]
  split <;> rfl

theorem walIn_filter (wals : SortedMap Nat WalFile) (keep : Nat → WalFile → Bool) (walId : Nat)
    (kept : ∀ file, keep walId file = true) : walIn (wals.filter keep) walId = walIn wals walId := by
  simp only [walIn, SortedMap.find?_filter]
  cases wals.find? walId with
  | none => rfl
  | some file => simp [Option.filter, kept]

variable {wals : SortedMap Nat WalFile}

theorem mem_walIn : frame ∈ (walIn wals walId).frames ↔
      ∃ file, wals.find? walId = some file ∧ frame ∈ file.frames := by
  simp only [walIn]
  cases wals.find? walId with
  | none => simp [WalFile.empty, WalFile.frames]
  | some file => simp

theorem mem_walIn_filter (member : frame ∈ (walIn (wals.filter keep) walId).frames) :
    frame ∈ (walIn wals walId).frames := by
  obtain ⟨file, found, held⟩ := mem_walIn.mp member
  rw [SortedMap.find?_filter] at found
  exact mem_walIn.mpr ⟨file, (Option.filter_eq_some_iff.mp found).1, held⟩

theorem mem_synced_walIn_filter (member : frame ∈ (walIn (wals.filter keep) walId).synced) :
    frame ∈ (walIn wals walId).synced := by
  simp only [walIn, SortedMap.find?_filter] at member ⊢
  cases found : wals.find? walId with
  | none => simp [found, Option.filter, WalFile.empty] at member
  | some file =>
    rw [found] at member
    simp only [Option.filter] at member
    split at member
    · exact member
    · simp [WalFile.empty] at member

def ManifestLog.IdsOk (manifest : ManifestLog) : Prop :=
  0 < manifest.activeWalId ∧ manifest.activeWalId < manifest.nextWalId ∧
    manifest.replayFromWalId ≤ manifest.activeWalId

theorem StoreLog.idsOk_installed (ok : store.manifest.IdsOk) (mem : MemLog) :
    (store.installed mem).IdsOk := ⟨ok.1, ok.2.1, StoreLog.replayFrom_le_active ok.1⟩

structure LogState.IdsOk (state : LogState) : Prop where
  manifest : state.store.manifest.IdsOk
  persisted : ∀ manifest, state.persisted = some manifest → manifest.IdsOk
  file : 0 < state.activeWalFileId ∧ state.activeWalFileId ≤ state.store.manifest.activeWalId
  mems : ∀ mem ∈ state.mems, 0 < mem.walId ∧ mem.walId ≤ state.store.manifest.activeWalId
  wals : ∀ walId file, state.wals.find? walId = some file → 0 < walId

namespace LogState.IdsOk

variable {state next : LogState}

theorem insert_wal (ok : state.IdsOk) (set : 0 < walId) (file : WalFile) :
    ∀ other found, (state.wals.insert walId file).find? other = some found → 0 < other := by
  intro other found member
  rw [SortedMap.find?_insert] at member
  split at member
  · rename_i same
    exact same ▸ set
  · exact ok.wals other found member

theorem saves {manifest : ManifestLog} (ok : state.IdsOk) (good : manifest.IdsOk)
    (saves : Saves manifest state.persisted outcome saved) :
    ∀ manifest, saved = some manifest → manifest.IdsOk := by
  rcases saves.cases with rfl | rfl
  · rintro _ ⟨⟩
    exact good
  · exact ok.persisted

theorem applied (ok : state.IdsOk) (index : Nat) (request : Request) :
    (state.applied index request).IdsOk := by
  refine { ok with mems := ?_ }
  intro mem member
  rcases mem_cons.mp member with rfl | member
  · obtain ⟨set, le⟩ := ok.mems _ mem_cons_self
    have unchanged : ¬ (state.store.mutable.walId = 0 ∨
        state.store.manifest.activeWalId < state.store.mutable.walId) := by omega
    simp only [LogState.applied, StoreLog.applied, MemLog.noteFrame, if_neg unchanged]
    exact ⟨set, le⟩
  · exact ok.mems mem (mem_cons_of_mem _ member)

theorem rotated (ok : state.IdsOk) : state.rotated.IdsOk := by
  obtain ⟨set, next, replay⟩ := ok.manifest
  refine { ok with manifest := ?_, file := ?_, mems := ?_ }
  · refine ⟨?_, ?_, ?_⟩ <;> simp only [LogState.rotated, StoreLog.rotated] <;> omega
  · have file := ok.file
    simp only [LogState.rotated, StoreLog.rotated]
    omega
  · intro mem member
    have old : ∀ mem ∈ state.mems, 0 < mem.walId ∧ mem.walId ≤ state.store.manifest.nextWalId :=
      fun mem member => by
        have := ok.mems mem member
        omega
    simp only [LogState.mems, LogState.rotated, StoreLog.rotated, cons_append, append_assoc,
      mem_cons, mem_append, nil_append] at member
    simp only [LogState.mems, cons_append, mem_cons, mem_append] at old
    rcases member with rfl | member | rfl | member
    · simp only [MemLog.new, LogState.rotated, StoreLog.rotated]
      omega
    · exact old mem (.inr (.inl member))
    · exact old _ (.inl rfl)
    · exact old mem (.inr (.inr member))

theorem cleaned (ok : state.IdsOk) : state.cleaned.IdsOk := by
  refine { ok with manifest := ?_, wals := ?_ }
  · exact ⟨ok.manifest.1, ok.manifest.2.1, StoreLog.replayFrom_le_active ok.manifest.1⟩
  · intro walId file found
    simp only [LogState.cleaned, SortedMap.find?_filter] at found
    exact ok.wals walId file (Option.filter_eq_some_iff.mp found).1

theorem installed (ok : state.IdsOk) (mem : MemLog) : (state.installed mem).IdsOk := by
  have good := StoreLog.idsOk_installed ok.manifest mem
  exact { ok with manifest := good, persisted := by rintro _ ⟨⟩; exact good }

theorem taken {held : List MemLog} (ok : state.IdsOk) (old : ∀ mem ∈ held, mem ∈ state.mems) :
    (state.taken held).IdsOk := by
  refine { ok with mems := ?_ }
  intro mem member
  simp only [LogState.mems, LogState.taken, cons_append, nil_append,
    mem_cons] at member
  rcases member with rfl | member
  · exact ⟨ok.manifest.1, le_refl _⟩
  · exact ok.mems mem (old mem member)

theorem step (ok : state.IdsOk) (stepped : LogStep state action next) : next.IdsOk := by
  cases stepped with
  | quiet => exact ok
  | submit => exact { ok with }
  | refuse => exact { ok with }
  | apply found _ _ => exact ok.applied _ _
  | applyRotate found _ _ => exact (ok.applied _ _).rotated
  | drain => exact { ok with }
  | openFails => exact { ok with }
  | openSame => exact { ok with }
  | openNext =>
    exact { ok with
      wals := ok.insert_wal ok.manifest.1 _
      file := ⟨ok.manifest.1, le_refl _⟩ }
  | append => exact { ok with wals := ok.insert_wal ok.file.1 _ }
  | sync => exact { ok with wals := ok.insert_wal ok.file.1 _ }
  | syncFails => exact { ok with }
  | answer => exact { ok with }
  | stop => exact { ok with }
  | flushTake => exact { ok with }
  | flushEnds => exact { ok with }
  | install => exact { ok.installed _ with }
  | installClean =>
    apply cleaned
    exact { ok.installed _ with }
  | installFails _ _ saves =>
    exact { ok with persisted := ok.saves (StoreLog.idsOk_installed ok.manifest _) saves }
  | pop rest _ queued =>
    refine { ok with mems := ?_ }
    intro mem member
    apply ok.mems
    simp only [LogState.mems, queued, cons_append, mem_cons, mem_append] at member ⊢
    tauto
  | save saves => exact { ok with persisted := ok.saves ok.manifest saves }
  | closeBegin => exact { ok with }
  | closeStop => exact { ok with }
  | closeTake kept merged _ _ _ cases _ =>
    refine { ok.taken ?_ with }
    intro mem member
    simp only [LogState.mems, cons_append, mem_cons, mem_append]
    rcases mem_append.mp member with member | member
    · exact .inr (.inl member)
    · rcases cases with rfl | rfl
      · contradiction
      · exact .inl (mem_singleton.mp member)
  | closeTakeNone _ _ _ saves =>
    exact { ok.taken (forall_mem_nil _) with persisted := ok.saves ok.manifest saves }
  | closeFails => exact { ok with }
  | @closeInstall mem _ _ =>
    refine { ok.installed mem with mems := ?_ }
    intro mem member
    apply ok.mems
    simp only [LogState.mems, LogState.installed, append_nil] at member
    exact mem_append_left _ member
  | closeInstallFails _ _ saves =>
    exact { ok with persisted := ok.saves (StoreLog.idsOk_installed ok.manifest _) saves }

end LogState.IdsOk
end SwStack.EmbeddedDb

/-! Sequence numbers in flight. A request keeps its sequence from its ticket to its
answer; no other request, memtable frame or log frame has it before its own. -/
namespace SwStack.EmbeddedDb

open SwStack.Lib

def Request.sequence (request : Request) : Nat := request.frame.sequence

namespace ServiceStage

/-- The requests whose frames are not in the synced part of a log. -/
def unsynced : ServiceStage → List Request
  | drained group _ | opened group _ | appended group _ | failed group => group
  | committed _ _ | idle | stopped => []

/-- The requests whose frames are in no log at all. -/
def unlogged : ServiceStage → List Request
  | drained group _ | opened group _ => group
  | appended _ _ | failed _ | committed _ _ | idle | stopped => []

theorem unlogged_subset {stage : ServiceStage} (member : request ∈ stage.unlogged) :
    request ∈ stage.unsynced := by
  cases stage <;> first | exact member | contradiction

theorem unsynced_subset {stage : ServiceStage} (member : request ∈ stage.unsynced) :
    request ∈ stage.group := by
  cases stage <;> first | exact member | contradiction

end ServiceStage

namespace LogState

def queue (state : LogState) : List Request :=
  state.tickets ++ state.pendingWrites ++ state.service.group

/-- Some memtable carries the frame. -/
def Resident (state : LogState) (frame : Frame) : Prop := ∃ mem ∈ state.mems, frame ∈ mem.frames

/-- Some log file holds the frame, or did. -/
def Logged (state : LogState) (frame : Frame) : Prop :=
  (∃ walId, frame ∈ (state.wal walId).frames) ∨ ∃ walId, (walId, frame) ∈ state.walFrames

variable {state : LogState}

theorem resident_applied (resident : (state.applied index request).Resident frame) :
    frame = request.frame ∨ state.Resident frame := by
  obtain ⟨mem, member, held⟩ := resident
  rcases mem_cons.mp member with rfl | member
  · rcases mem_append.mp held with held | held
    · exact .inr ⟨_, mem_cons_self, held⟩
    · exact .inl (mem_singleton.mp held)
  · exact .inr ⟨mem, mem_cons_of_mem _ member, held⟩

theorem mem_rotated (member : mem ∈ state.rotated.mems) :
    mem = MemLog.new state.store.manifest.nextWalId ∨ mem ∈ state.mems := by
  simp only [mems, rotated, StoreLog.rotated, cons_append, append_assoc, nil_append,
    mem_cons, mem_append] at member ⊢
  tauto

theorem resident_rotated (resident : state.rotated.Resident frame) : state.Resident frame := by
  obtain ⟨mem, member, held⟩ := resident
  rcases mem_rotated member with rfl | member
  · contradiction
  · exact ⟨mem, member, held⟩

theorem logged_insert
    (logged : ({ state with wals := state.wals.insert walId file } : LogState).Logged frame) :
    frame ∈ file.frames ∨ state.Logged frame := by
  rcases logged with ⟨other, held⟩ | listed
  · rw [wal_eq, walIn_insert] at held
    split at held
    · exact .inl held
    · exact .inr (.inl ⟨other, held⟩)
  · exact .inr (.inr listed)

theorem logged_cleaned (logged : state.cleaned.Logged frame) : state.Logged frame := by
  rcases logged with ⟨walId, held⟩ | listed
  · exact .inl ⟨walId, mem_walIn_filter held⟩
  · exact .inr listed

theorem logged_appended (logged : (state.appended group target failAfter).Logged frame) :
    (∃ request ∈ group, request.frame = frame) ∨ state.Logged frame := by
  have written : ∀ frame ∈ appendedFrames group failAfter, ∃ request ∈ group,
      request.frame = frame := by
    intro frame member
    obtain ⟨request, member, same⟩ := mem_map.mp member
    exact ⟨request, mem_of_mem_take member, same⟩
  rcases logged with ⟨walId, held⟩ | ⟨walId, listed⟩
  · rw [wal_eq] at held
    simp only [appended, walIn_insert] at held
    split at held
    · simp only [WalFile.frames, ← append_assoc] at held
      rcases mem_append.mp held with held | held
      · exact .inr (.inl ⟨state.activeWalFileId, held⟩)
      · exact .inl (written frame held)
    · exact .inr (.inl ⟨walId, held⟩)
  · rcases mem_append.mp listed with listed | listed
    · exact .inr (.inr ⟨walId, listed⟩)
    · obtain ⟨found, member, same⟩ := mem_map.mp listed
      cases same
      exact .inl (written _ member)

end LogState

structure LogState.SequencesOk (state : LogState) : Prop where
  nodup : (state.queue.map Request.sequence).Nodup
  queue : ∀ request ∈ state.queue, request.sequence < state.nextSequence
  visible : state.store.lastVisibleSequence < state.nextSequence
  applied : ∀ request ∈ state.pendingWrites ++ state.service.group,
    request.sequence ≤ state.store.lastVisibleSequence
  resident : ∀ frame, state.Resident frame → frame.sequence < state.nextSequence
  ticketResident : ∀ request ∈ state.tickets, ∀ frame, state.Resident frame →
    frame.sequence ≠ request.sequence
  logged : ∀ frame, state.Logged frame → frame.sequence < state.nextSequence
  unlogged : ∀ request ∈ state.tickets ++ state.pendingWrites ++ state.service.unlogged,
    ∀ frame, state.Logged frame → frame.sequence ≠ request.sequence
  unsynced : ∀ request ∈ state.service.unsynced, ∀ walId,
    ∀ frame ∈ (state.wal walId).synced, frame.sequence ≠ request.sequence

namespace LogState.SequencesOk

variable {state next : LogState}

theorem waiting_ne_group (ok : state.SequencesOk)
    (waits : first ∈ state.tickets ++ state.pendingWrites) (taken : second ∈ state.service.group) :
    first.sequence ≠ second.sequence := by
  have nodup := ok.nodup
  rw [LogState.queue, map_append] at nodup
  have apart := (nodup_append.mp nodup).2.2
  exact apart _ (mem_map_of_mem waits) _ (mem_map_of_mem taken)

theorem residents (ok : state.SequencesOk) (mems : List MemLog)
    (old : ∀ mem ∈ mems, mem.frames = [] ∨ mem ∈ state.mems) :
    (∀ frame, (∃ mem ∈ mems, frame ∈ mem.frames) → frame.sequence < state.nextSequence) ∧
    ∀ request ∈ state.tickets, ∀ frame, (∃ mem ∈ mems, frame ∈ mem.frames) →
      frame.sequence ≠ request.sequence := by
  have within : ∀ frame, (∃ mem ∈ mems, frame ∈ mem.frames) → state.Resident frame := by
    rintro frame ⟨mem, member, held⟩
    rcases old mem member with empty | member
    · rw [empty] at held
      contradiction
    · exact ⟨mem, member, held⟩
  exact ⟨fun frame held => ok.resident frame (within frame held),
    fun request member frame held => ok.ticketResident request member frame (within frame held)⟩

theorem submitted (ok : state.SequencesOk) (batch : WriteBatch) (wait : Bool) :
    (state.submitted batch wait).SequencesOk := by
  let ticket : Request :=
    { frame := { sequence := state.nextSequence, batch }, waitForDurable := wait }
  have queued : (state.tickets ++ [ticket] ++ state.pendingWrites ++ state.service.group).Perm
      (ticket :: state.queue) := by
    simp only [LogState.queue, append_assoc, singleton_append]
    exact perm_middle
  have fresh : ticket.sequence ∉ state.queue.map Request.sequence := by
    intro member
    obtain ⟨request, member, same⟩ := mem_map.mp member
    exact (ok.queue request member).ne same
  refine { ok with
    nodup := ?_, queue := ?_, visible := ?_, resident := ?_, ticketResident := ?_
    logged := ?_, unlogged := ?_ }
  · exact ((queued.map _).nodup_iff).mpr (nodup_cons.mpr ⟨fresh, ok.nodup⟩)
  · intro request member
    rcases mem_cons.mp (queued.mem_iff.mp member) with rfl | member
    · exact Nat.lt_succ_self _
    · exact (ok.queue request member).trans (Nat.lt_succ_self _)
  · exact ok.visible.trans (Nat.lt_succ_self _)
  · intro frame held
    exact (ok.resident frame held).trans (Nat.lt_succ_self _)
  · intro request member frame held
    rcases mem_append.mp member with member | member
    · exact ok.ticketResident request member frame held
    · rw [mem_singleton.mp member]
      exact (ok.resident frame held).ne
  · intro frame held
    exact (ok.logged frame held).trans (Nat.lt_succ_self _)
  · intro request member frame held
    have cases : request ∈ state.tickets ++ state.pendingWrites ++ state.service.unlogged ∨
        request = ticket := by
      simp only [LogState.submitted, mem_append, mem_singleton] at member ⊢
      tauto
    rcases cases with member | rfl
    · exact ok.unlogged request member frame held
    · exact (ok.logged frame held).ne

theorem queue_applied (found : state.tickets[index]? = some request) :
    (state.applied index request).queue.Perm state.queue := by
  have moved : (state.tickets.eraseIdx index ++ [request]).Perm state.tickets := by
    obtain ⟨inside, rfl⟩ := List.getElem?_eq_some_iff.mp found
    exact perm_append_comm.trans (getElem_cons_eraseIdx_perm inside)
  have reordered : (state.tickets.eraseIdx index ++ (state.pendingWrites ++ [request])).Perm
      (state.tickets.eraseIdx index ++ [request] ++ state.pendingWrites) := by
    rw [append_assoc]
    exact perm_append_comm.append_left _
  exact (reordered.trans (moved.append_right _)).append_right _

theorem applied_step (ok : state.SequencesOk) (found : state.tickets[index]? = some request) :
    (state.applied index request).SequencesOk := by
  have permuted := queue_applied found
  have ticket : request ∈ state.tickets := mem_of_getElem? found
  have requestLt : request.sequence < state.nextSequence :=
    ok.queue request (mem_append_left _ (mem_append_left _ ticket))
  have tickets : ∀ other ∈ state.tickets.eraseIdx index, other ∈ state.tickets :=
    fun _ member => mem_of_mem_eraseIdx member
  refine { ok with
    nodup := ((permuted.map _).nodup_iff).mpr ok.nodup
    queue := fun other member => ok.queue other (permuted.mem_iff.mp member)
    visible := max_lt ok.visible requestLt
    applied := ?_, resident := ?_, ticketResident := ?_, unlogged := ?_ }
  · intro other member
    have cases : other = request ∨ other ∈ state.pendingWrites ++ state.service.group := by
      simp only [LogState.applied, mem_append, mem_singleton] at member ⊢
      tauto
    rcases cases with rfl | member
    · exact le_max_right _ _
    · exact (ok.applied other member).trans (le_max_left _ _)
  · intro frame held
    rcases LogState.resident_applied held with rfl | held
    · exact requestLt
    · exact ok.resident frame held
  · intro other member frame held
    rcases LogState.resident_applied held with rfl | held
    · -- the applied ticket is not among those left
      have nodup : ((state.tickets.eraseIdx index ++ [request]).map Request.sequence).Nodup := by
        have whole := ((permuted.map Request.sequence).nodup_iff).mpr ok.nodup
        refine whole.sublist (List.Sublist.map _ ?_)
        simp only [LogState.queue, LogState.applied, append_assoc]
        exact (List.Sublist.refl _).append
          ((sublist_append_left _ _).trans (sublist_append_right _ _))
      rw [map_append, nodup_append] at nodup
      exact Ne.symm (nodup.2.2 _ (mem_map_of_mem member) _
        (mem_map_of_mem (mem_singleton_self _)))
    · exact ok.ticketResident other (tickets other member) frame held
  · intro other member
    apply ok.unlogged
    have request_mem := ticket
    have cases : other ∈ state.tickets.eraseIdx index ∨ other = request ∨
        other ∈ state.pendingWrites ++ state.service.unlogged := by
      simp only [LogState.applied, mem_append, mem_singleton] at member ⊢
      tauto
    rw [append_assoc, mem_append]
    rcases cases with member | rfl | member
    · exact .inl (tickets other member)
    · exact .inl ticket
    · exact .inr member

theorem rotated (ok : state.SequencesOk) : state.rotated.SequencesOk :=
  { ok with
    resident := fun frame held => ok.resident frame (LogState.resident_rotated held)
    ticketResident := fun request member frame held =>
      ok.ticketResident request member frame (LogState.resident_rotated held) }

theorem cleaned (ok : state.SequencesOk) : state.cleaned.SequencesOk :=
  { ok with
    logged := fun frame held => ok.logged frame (LogState.logged_cleaned held)
    unlogged := fun request member frame held =>
      ok.unlogged request member frame (LogState.logged_cleaned held)
    unsynced := fun request member walId frame held =>
      ok.unsynced request member walId frame (mem_synced_walIn_filter held) }

theorem appended_step (ok : state.SequencesOk) (opened : state.service = .opened group target) :
    (state.appended group target failAfter).SequencesOk := by
  have taken : state.service.group = group := by rw [opened]; rfl
  have stage : (state.appended group target failAfter).service = .appended group target ∨
      (state.appended group target failAfter).service = .failed group := by
    simp only [LogState.appended]
    split
    · exact .inl rfl
    · exact .inr rfl
  have sameGroup : (state.appended group target failAfter).service.group = state.service.group := by
    rw [taken]
    rcases stage with stage | stage <;> rw [stage] <;> rfl
  have sameQueue : (state.appended group target failAfter).queue = state.queue := by
    simp only [LogState.queue, sameGroup]
    rfl
  refine { ok with
    nodup := sameQueue ▸ ok.nodup, queue := sameQueue ▸ ok.queue, applied := ?_, logged := ?_
    unlogged := ?_, unsynced := ?_ }
  · rw [sameGroup]
    exact ok.applied
  · intro frame held
    rcases LogState.logged_appended held with ⟨request, member, rfl⟩ | held
    · exact ok.queue request (mem_append_right _ (taken ▸ member))
    · exact ok.logged frame held
  · intro request member frame held
    have waits : request ∈ state.tickets ++ state.pendingWrites := by
      rw [mem_append] at member
      refine member.resolve_right fun member => ?_
      rcases stage with stage | stage <;> rw [stage] at member <;> contradiction
    rcases LogState.logged_appended held with ⟨other, taken', rfl⟩ | held
    · exact (ok.waiting_ne_group waits (taken ▸ taken')).symm
    · exact ok.unlogged request (mem_append_left _ waits) frame held
  · intro request member walId frame held
    have member : request ∈ state.service.unsynced := by
      rw [opened]
      rcases stage with stage | stage <;> simpa only [stage, ServiceStage.unsynced] using member
    refine ok.unsynced request member walId frame ?_
    rw [LogState.wal_eq] at held ⊢
    simp only [LogState.appended, walIn_insert] at held
    split at held
    · rename_i same
      exact same ▸ held
    · exact held

theorem synced_step (ok : state.SequencesOk) (appended : state.service = .appended group target) :
    (state.synced group target).SequencesOk := by
  have logged : ∀ frame, (state.synced group target).Logged frame → state.Logged frame := by
    intro frame held
    rcases LogState.logged_insert held with held | held
    · exact .inl ⟨state.activeWalFileId, by simpa [WalFile.frames] using held⟩
    · exact held
  have taken : state.service.group = group := by rw [appended]; rfl
  refine { ok with nodup := ?_, queue := ?_, applied := ?_, logged := ?_, unlogged := ?_, unsynced := ?_ }
  · exact taken ▸ ok.nodup
  · exact taken ▸ ok.queue
  · exact taken ▸ ok.applied
  · exact fun frame held => ok.logged frame (logged frame held)
  · intro request member frame held
    have unlogged := ok.unlogged request
    rw [appended] at unlogged
    exact unlogged member frame (logged frame held)
  · intro request member
    contradiction

/-- The service drops its group, and nothing else changes. -/
theorem dropGroup (ok : state.SequencesOk) (service : ServiceStage) (empty : service.group = []) :
    ({ state with service } : LogState).SequencesOk := by
  have unsynced : service.unsynced = [] := eq_nil_iff_forall_not_mem.mpr fun request member => by
    have := empty ▸ ServiceStage.unsynced_subset member
    contradiction
  have unlogged : service.unlogged = [] := eq_nil_iff_forall_not_mem.mpr fun request member => by
    have := unsynced ▸ ServiceStage.unlogged_subset member
    contradiction
  have kept : (state.tickets ++ state.pendingWrites ++ service.group).Sublist state.queue := by
    rw [empty, append_nil]
    exact sublist_append_left _ _
  refine { ok with
    nodup := ok.nodup.sublist (kept.map _)
    queue := fun request member => ok.queue request (kept.subset member)
    applied := ?_, unlogged := ?_, unsynced := ?_ }
  · intro request member
    rw [empty, append_nil] at member
    exact ok.applied request (mem_append_left _ member)
  · intro request member
    rw [unlogged, append_nil] at member
    exact ok.unlogged request (mem_append_left _ member)
  · intro request member
    rw [unsynced] at member
    contradiction

theorem drained (ok : state.SequencesOk) (idle : state.service = .idle) :
    { state with
      service := .drained state.pendingWrites target
      pendingWrites := [] }.SequencesOk := by
  have empty : state.service.group = [] := by rw [idle]; rfl
  have unlogged : state.service.unlogged = [] := by rw [idle]; rfl
  have sameQueue : state.tickets ++ [] ++ state.pendingWrites = state.queue := by
    rw [LogState.queue, empty, append_nil, append_nil]
  have sameApplied : [] ++ state.pendingWrites = state.pendingWrites ++ state.service.group := by
    rw [empty, append_nil, nil_append]
  have sameUnlogged : state.tickets ++ [] ++ state.pendingWrites =
      state.tickets ++ state.pendingWrites ++ state.service.unlogged := by
    rw [unlogged, append_nil, append_nil]
  have nodup : ((state.tickets ++ [] ++ state.pendingWrites).map Request.sequence).Nodup :=
    sameQueue ▸ ok.nodup
  have queue : ∀ request ∈ state.tickets ++ [] ++ state.pendingWrites,
      request.sequence < state.nextSequence := sameQueue ▸ ok.queue
  have applied : ∀ request ∈ [] ++ state.pendingWrites,
      request.sequence ≤ state.store.lastVisibleSequence := sameApplied ▸ ok.applied
  refine { ok with nodup, queue, applied, unlogged := sameUnlogged ▸ ok.unlogged, unsynced := ?_ }
  intro request member walId frame held
  refine ok.unlogged request ?_ frame (.inl ⟨walId, mem_append_left _ held⟩)
  exact mem_append_left _ (mem_append_right _ member)

theorem regroup (ok : state.SequencesOk) (service : ServiceStage)
    (group : service.group = state.service.group)
    (unlogged : ∀ request ∈ service.unlogged, request ∈ state.service.unlogged)
    (unsynced : ∀ request ∈ service.unsynced, request ∈ state.service.unsynced) :
    ({ state with service } : LogState).SequencesOk := by
  have sameQueue : state.tickets ++ state.pendingWrites ++ service.group = state.queue := by
    rw [LogState.queue, group]
  have nodup : ((state.tickets ++ state.pendingWrites ++ service.group).map
      Request.sequence).Nodup := sameQueue ▸ ok.nodup
  have queue : ∀ request ∈ state.tickets ++ state.pendingWrites ++ service.group,
      request.sequence < state.nextSequence := sameQueue ▸ ok.queue
  refine { ok with
    nodup, queue, applied := group ▸ ok.applied, unlogged := ?_
    unsynced := fun request member => ok.unsynced request (unsynced request member) }
  intro request member
  apply ok.unlogged
  rcases mem_append.mp member with member | member
  · exact mem_append_left _ member
  · exact mem_append_right _ (unlogged request member)

theorem openedNext (ok : state.SequencesOk) (walId : Nat) :
    { state with wals := state.wals.insert walId (state.wal walId) }.SequencesOk := by
  have same : ∀ other, walIn (state.wals.insert walId (state.wal walId)) other =
      walIn state.wals other := by
    intro other
    rw [walIn_insert]
    split
    · rename_i same
      rw [same, LogState.wal_eq]
    · rfl
  have logged : ∀ frame, ({ state with wals := state.wals.insert walId (state.wal walId) } :
      LogState).Logged frame → state.Logged frame := by
    rintro frame (⟨other, held⟩ | listed)
    · rw [LogState.wal_eq, same] at held
      exact .inl ⟨other, held⟩
    · exact .inr listed
  refine { ok with logged := ?_, unlogged := ?_, unsynced := ?_ }
  · exact fun frame held => ok.logged frame (logged frame held)
  · exact fun request member frame held => ok.unlogged request member frame (logged frame held)
  · intro request member other frame held
    rw [LogState.wal_eq, same] at held
    exact ok.unsynced request member other frame held

theorem step (ok : state.SequencesOk) (stepped : LogStep state action next) :
    next.SequencesOk := by
  cases stepped with
  | quiet => exact ok
  | submit wait _ _ => exact ok.submitted _ wait
  | @refuse index =>
    have kept : (state.tickets.eraseIdx index ++ state.pendingWrites ++ state.service.group).Sublist
        state.queue := ((eraseIdx_sublist _ _).append_right _).append_right _
    refine { ok with
      nodup := ok.nodup.sublist (kept.map _)
      queue := fun request member => ok.queue request (kept.subset member)
      ticketResident := fun request member => ok.ticketResident request (mem_of_mem_eraseIdx member)
      unlogged := ?_ }
    have fewer : (state.tickets.eraseIdx index ++ state.pendingWrites ++
        state.service.unlogged).Sublist _ :=
      ((eraseIdx_sublist _ _).append_right _).append_right _
    exact fun request member => ok.unlogged request (fewer.subset member)
  | apply found _ _ => exact ok.applied_step found
  | applyRotate found _ _ => exact (ok.applied_step found).rotated
  | drain idle _ => exact ok.drained idle
  | openFails drained =>
    refine ok.regroup _ (by rw [drained]; rfl) ?_ ?_ <;> rw [drained]
    · intro request member
      contradiction
    · exact fun _ member => member
  | openSame drained _ =>
    refine ok.regroup _ (by rw [drained]; rfl) ?_ ?_ <;> rw [drained] <;> exact fun _ member => member
  | openNext drained =>
    have reopened := ok.openedNext state.store.manifest.activeWalId
    refine { reopened.regroup (.opened _ _) ?_ ?_ ?_ with } <;> rw [drained]
    · rfl
    · exact fun _ member => member
    · exact fun _ member => member
  | append opened => exact ok.appended_step opened
  | sync appended => exact ok.synced_step appended
  | syncFails appended =>
    refine ok.regroup _ (by rw [appended]; rfl) ?_ ?_ <;> rw [appended] <;> exact fun _ member => member
  | answer _ => exact { ok.dropGroup .idle rfl with }
  | stop _ => exact { ok.dropGroup .stopped rfl with }
  | flushTake => exact { ok with }
  | flushEnds => exact { ok with }
  | install => exact { ok with }
  | @installClean mem _ _ =>
    apply cleaned
    exact { ok with }
  | installFails => exact { ok with }
  | pop rest _ queued =>
    obtain ⟨resident, ticketResident⟩ := ok.residents
      (state.store.mutable :: rest ++ state.held) (by
        intro mem member
        right
        simp only [LogState.mems, queued, cons_append, mem_cons, mem_append]
          at member ⊢
        tauto)
    exact { ok with resident, ticketResident }
  | save => exact { ok with }
  | closeBegin => exact { ok with }
  | closeStop stopped _ _ =>
    have dropped := ok.dropGroup .stopped rfl
    have kept : (state.tickets ++ [] ++ []).Sublist
        ({ state with service := .stopped } : LogState).queue := by
      simp only [LogState.queue, ServiceStage.group, append_nil]
      exact sublist_append_left _ _
    refine { dropped with
      nodup := dropped.nodup.sublist (kept.map _)
      queue := fun request member => dropped.queue request (kept.subset member)
      applied := by intro request member; contradiction
      unlogged := ?_ }
    intro request member
    apply dropped.unlogged
    simp only [ServiceStage.unlogged, append_nil] at member ⊢
    exact mem_append_left _ member
  | closeTake kept merged _ _ _ cases _ =>
    obtain ⟨resident, ticketResident⟩ := ok.residents
      (state.taken (state.store.immutables ++ kept)).mems (by
        intro mem member
        simp only [LogState.mems, LogState.taken, cons_append, nil_append, mem_cons,
          mem_append] at member ⊢
        rcases member with rfl | member | member
        · exact .inl rfl
        · exact .inr (.inr (.inl member))
        · rcases cases with rfl | rfl
          · contradiction
          · exact .inr (.inl (mem_singleton.mp member)))
    exact { ok with resident, ticketResident }
  | closeTakeNone _ _ _ _ =>
    obtain ⟨resident, ticketResident⟩ := ok.residents (state.taken []).mems (by
      intro mem member
      left
      rw [mem_singleton.mp member]
      rfl)
    exact { ok with resident, ticketResident }
  | closeFails => exact { ok with }
  | closeInstall _ _ =>
    obtain ⟨resident, ticketResident⟩ := ok.residents
      (state.store.mutable :: state.store.immutables ++ []) (by
        intro mem member
        right
        rw [append_nil] at member
        exact mem_append_left _ member)
    exact { ok with resident, ticketResident }
  | closeInstallFails => exact { ok with }

end LogState.SequencesOk
end SwStack.EmbeddedDb
