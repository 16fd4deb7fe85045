import SwStack.SwVtp.Reassembler
import SwStack.Lib.Transition
import SwStack.Lib.Collector

/-! What the reassembler says about its buffer: the byte count is the size of the fragments that
wait, and no more frames wait than the limit. -/
namespace SwStack.SwVtp

open SwStack.Lib List

namespace SwVtpFrameReassembler

/-- The byte count is the sum over the frames. -/
def Measured (reassembler : SwVtpFrameReassembler) : Prop :=
  reassembler.bufferedBytes = reassembler.frames.weight FrameState.bytes

variable {reassembler : SwVtpFrameReassembler}

variable {key : FrameKey}

theorem Measured.erase (measured : Measured reassembler)
    (found : reassembler.frames.find? key = some state) :
    Measured (reassembler.erase key state) := by
  have split := SortedMap.weight_erase FrameState.bytes found
  have total : reassembler.bufferedBytes = _ := measured
  unfold Measured
  change reassembler.bufferedBytes - state.bytes = (reassembler.frames.erase key).weight _
  omega

theorem Measured.dropFrame (measured : Measured reassembler) (key : FrameKey) :
    Measured (reassembler.dropFrame key) := by
  unfold SwVtpFrameReassembler.dropFrame
  cases found : reassembler.frames.find? key with
  | none => exact measured
  | some state => exact measured.erase found

theorem foldl_sub_bytes (entries : List (FrameKey × FrameState)) (total : Nat) :
    entries.foldl (fun total entry => total - entry.2.bytes) total =
      total - (entries.map fun entry => entry.2.bytes).sum := by
  induction entries generalizing total with
  | nil => rfl
  | cons entry entries ih => rw [foldl_cons, ih, map_cons, sum_cons, Nat.sub_sub]

theorem Measured.expire (measured : Measured reassembler) (nowUs : UInt64) :
    Measured (reassembler.expire nowUs) := by
  have split := SortedMap.weight_filter FrameState.bytes reassembler.frames
    fun _ state => !state.expired nowUs
  have total : reassembler.bufferedBytes = _ := measured
  simp only [Bool.not_not] at split
  unfold Measured SwVtpFrameReassembler.expire
  dsimp only
  rw [foldl_sub_bytes]
  omega

theorem oldest?_mem (oldest : oldest? entries = some found) : found ∈ entries := by
  cases entries with
  | nil => cases oldest
  | cons first rest =>
    cases oldest
    induction rest generalizing first with
    | nil => exact mem_singleton_self _
    | cons entry rest ih =>
      rw [foldl_cons]
      split
      · exact mem_cons_of_mem _ (ih entry)
      · cases mem_cons.mp (ih first) with
        | inl same =>
          rw [same]
          exact mem_cons_self
        | inr later => exact mem_cons_of_mem _ (mem_cons_of_mem _ later)

theorem dropOldest_cases (reassembler : SwVtpFrameReassembler) :
    (reassembler.frames.size = 0 ∧ reassembler.dropOldest = reassembler) ∨
      ∃ key state, reassembler.frames.find? key = some state ∧
        reassembler.dropOldest =
          { reassembler.erase key state with droppedFrames := reassembler.droppedFrames + 1 } := by
  unfold dropOldest
  cases oldest : oldest? reassembler.frames.entries with
  | none =>
    refine Or.inl ⟨?_, rfl⟩
    unfold SortedMap.size
    cases entries : reassembler.frames.entries with
    | nil => rfl
    | cons first rest =>
      rw [entries] at oldest
      cases oldest
  | some found =>
    exact Or.inr ⟨found.1, found.2, SortedMap.find?_of_mem (oldest?_mem oldest), rfl⟩

theorem dropOldest_rounds (measured : Measured reassembler) (rounds : Nat) :
    Measured (dropOldest^[rounds] reassembler) ∧
      (dropOldest^[rounds] reassembler).frames.size = reassembler.frames.size - rounds ∧
      (dropOldest^[rounds] reassembler).maxBufferedFrames = reassembler.maxBufferedFrames := by
  induction rounds generalizing reassembler with
  | zero => exact ⟨measured, rfl, rfl⟩
  | succ rounds ih =>
    rw [Function.iterate_succ_apply]
    obtain ⟨empty, same⟩ | ⟨key, state, found, dropped⟩ := dropOldest_cases reassembler
    · rw [same]
      obtain ⟨kept, size, limit⟩ := ih measured
      exact ⟨kept, by omega, limit⟩
    · have smaller := SortedMap.size_erase found
      have after : Measured reassembler.dropOldest := by
        rw [dropped]
        exact measured.erase found
      have left : reassembler.dropOldest.frames.size = (reassembler.frames.erase key).size := by
        rw [dropped]
        rfl
      obtain ⟨kept, size, limit⟩ := ih after
      refine ⟨kept, by omega, limit.trans ?_⟩
      rw [dropped]
      rfl

/-- What a run keeps: the byte count is right, and the limit holds. -/
structure Accounted (reassembler : SwVtpFrameReassembler) : Prop where
  measured : Measured reassembler
  limited : reassembler.frames.size ≤ reassembler.maxBufferedFrames

theorem Accounted.trimBufferedFrames (measured : Measured reassembler) :
    Accounted reassembler.trimBufferedFrames := by
  obtain ⟨kept, size, limit⟩ := dropOldest_rounds measured
    (reassembler.frames.size - reassembler.maxBufferedFrames)
  refine ⟨kept, ?_⟩
  unfold SwVtpFrameReassembler.trimBufferedFrames
  omega

theorem Accounted.dropFrame (measured : Measured reassembler)
    (found : reassembler.frames.find? key = some state)
    (room : (reassembler.frames.erase key).size ≤ reassembler.maxBufferedFrames) :
    Accounted (reassembler.dropFrame key) := by
  refine ⟨measured.dropFrame key, ?_⟩
  unfold SwVtpFrameReassembler.dropFrame
  rw [found]
  exact room

theorem store_missing {state : FrameState} (payload : Bytes)
    (missing : state.fragments[header.fragmentIndex.toNat]? = some none) :
    (state.store header payload).bytes = state.bytes + payload.length ∧
      (state.store header payload).fragments =
        state.fragments.set header.fragmentIndex.toNat (some payload) := by
  unfold FrameState.store
  rw [dif_pos missing]
  exact ⟨rfl, rfl⟩

theorem missing_of_not_received {state : FrameState} {index : Nat}
    (inside : index < state.fragments.length) (absent : state.received index = false) :
    state.fragments[index]? = some none := by
  unfold FrameState.received at absent
  rw [List.getElem?_eq_getElem inside] at absent ⊢
  exact congrArg some (Option.not_isSome_iff_eq_none.mp (by simpa using absent))

theorem Accounted.storeFragment {state : FrameState} (measured : Measured reassembler)
    (found : reassembler.frames.find? key = some state)
    (room : (reassembler.frames.erase key).size ≤ reassembler.maxBufferedFrames)
    (missing : state.fragments[header.fragmentIndex.toNat]? = some none) :
    Accounted (reassembler.storeFragment key state header payload).1 := by
  have bytes := (store_missing payload missing).1
  have before := SortedMap.weight_erase FrameState.bytes found
  have after := SortedMap.weight_insert FrameState.bytes reassembler.frames key
    (state.store header payload)
  have total : reassembler.bufferedBytes = _ := measured
  unfold SwVtpFrameReassembler.storeFragment
  dsimp only
  generalize held : { reassembler with
    frames := reassembler.frames.insert key (state.store header payload)
    bufferedBytes := reassembler.bufferedBytes + payload.length
    acceptedFragments := reassembler.acceptedFragments + 1 } = current
  have heldMeasured : Measured current := by
    subst held
    unfold Measured
    dsimp only
    omega
  have heldFound : current.frames.find? key = some (state.store header payload) := by
    subst held
    exact SortedMap.find?_insert_self _ _ _
  have heldRoom : (current.frames.erase key).size ≤ current.maxBufferedFrames := by
    have inserted := SortedMap.size_insert reassembler.frames key (state.store header payload)
    have erased := SortedMap.size_erase heldFound
    subst held
    dsimp only at erased ⊢
    omega
  split
  · exact ⟨heldMeasured.erase heldFound, heldRoom⟩
  · exact Accounted.trimBufferedFrames heldMeasured

theorem Accounted.pushFragment {state : FrameState} {header : SwVtpHeader}
    {payload : Bytes} (measured : Measured reassembler)
    (found : reassembler.frames.find? key = some state)
    (room : (reassembler.frames.erase key).size ≤ reassembler.maxBufferedFrames)
    (known : state.received header.fragmentIndex.toNat = true →
      reassembler.frames.size ≤ reassembler.maxBufferedFrames)
    (inside : header.fragmentIndex < header.fragmentCount) :
    Accounted (reassembler.pushFragment key state header payload).1 := by
  unfold SwVtpFrameReassembler.pushFragment
  split
  · exact Accounted.dropFrame measured found room
  rename_i agree
  split
  · rename_i received
    exact ⟨measured, known received⟩
  rename_i absent
  split
  · exact Accounted.dropFrame measured found room
  · have missing := @missing_of_not_received state _ ?_ (by simpa using absent)
    · exact Accounted.storeFragment measured found room missing
    have sizes : state.fragments.length = header.fragmentCount.toNat := by
      by_contra differ
      exact agree (Or.inl differ)
    rw [sizes]
    exact UInt16.lt_iff_toNat_lt.mp inside

theorem Accounted.expire (accounted : Accounted reassembler) (nowUs : UInt64) :
    Accounted (reassembler.expire nowUs) :=
  ⟨accounted.measured.expire nowUs,
    (SortedMap.size_filter_le _ _).trans accounted.limited⟩

theorem not_received_initial (header : SwVtpHeader) (index : Nat) :
    (FrameState.initial header).received index = false := by
  unfold FrameState.received FrameState.initial
  dsimp only
  rw [List.getElem?_replicate]
  split
  · rfl
  · rfl

theorem bytes_initial (header : SwVtpHeader) : (FrameState.initial header).bytes = 0 := rfl

theorem isVideoFragment_inside {datagram : SwVtpDatagram}
    (video : datagram.isVideoFragment = true) :
    datagram.header.fragmentIndex < datagram.header.fragmentCount := by
  simp only [SwVtpDatagram.isVideoFragment, Bool.and_eq_true, decide_eq_true_eq] at video
  exact video.1.2

theorem Accounted.pushDatagram (accounted : Accounted reassembler) (datagram : SwVtpDatagram)
    (nowUs : UInt64) : Accounted (reassembler.pushDatagram datagram nowUs).1 := by
  unfold SwVtpFrameReassembler.pushDatagram
  dsimp only
  split
  · exact accounted
  rename_i video
  have inside := isVideoFragment_inside (by simpa using video)
  split
  · exact ⟨accounted.measured, accounted.limited⟩
  have current := accounted.expire nowUs
  generalize reassembler.expire nowUs = before at current
  have total : before.bufferedBytes = _ := current.measured
  generalize datagram.header.frameKey = key
  have inserted (state : FrameState) :=
    SortedMap.weight_insert FrameState.bytes before.frames key state
  have sizes (state : FrameState) := SortedMap.size_insert before.frames key state
  have limited := current.limited
  cases found : before.frames.find? key with
  | some state =>
    rw [Option.getD_some]
    have weight := SortedMap.weight_erase FrameState.bytes found
    have size := SortedMap.size_erase found
    refine Accounted.pushFragment ?_ (SortedMap.find?_insert_self _ _ _) ?_ (fun _ => ?_) inside
    · unfold Measured
      dsimp only
      rw [inserted]
      omega
    · dsimp only
      rw [SortedMap.erase_insert]
      omega
    · dsimp only
      rw [sizes]
      omega
  | none =>
    rw [Option.getD_none]
    have absent := SortedMap.erase_of_absent found
    refine Accounted.pushFragment ?_ (SortedMap.find?_insert_self _ _ _) ?_ (fun known => ?_) inside
    · unfold Measured
      dsimp only
      rw [inserted, absent, bytes_initial, Nat.zero_add]
      exact total
    · dsimp only
      rw [SortedMap.erase_insert, absent]
      exact limited
    · cases (not_received_initial _ _).symm.trans known

/-- The configuration does not cut the limit below the frames that wait. -/
def Configured (reassembler : SwVtpFrameReassembler) : Action → Prop
  | .setLimits maxBufferedFrames _ => reassembler.frames.size ≤ max maxBufferedFrames 1
  | _ => True

theorem Accounted.step (accounted : Accounted reassembler)
    (configured : Configured reassembler action) : Accounted (step reassembler action).1 := by
  cases action with
  | setLimits maxBufferedFrames maxFrameBytes =>
    refine ⟨accounted.measured, ?_⟩
    have limit : reassembler.frames.size ≤ max maxBufferedFrames 1 := configured
    change reassembler.frames.size ≤ if maxBufferedFrames = 0 then 1 else maxBufferedFrames
    split
    · omega
    · omega
  | reset => exact ⟨rfl, Nat.zero_le _⟩
  | pushSerializedDatagram bytes nowUs =>
    change Accounted (reassembler.pushSerializedDatagram bytes nowUs).1
    unfold SwVtpFrameReassembler.pushSerializedDatagram
    cases swVtpParseDatagram bytes with
    | none => exact accounted
    | some datagram => exact accounted.pushDatagram datagram nowUs
  | pushDatagram datagram nowUs => exact accounted.pushDatagram datagram nowUs
  | expire nowUs => exact accounted.expire nowUs

theorem accounted_new : Accounted .new := ⟨rfl, Nat.zero_le _⟩

theorem accounted_of_reaches
    (reached : Reaches (fun state action => some (SwVtp.step state action).1) Configured .new
      reassembler) : Accounted reassembler := by
  refine reached.invariant accounted_new ?_
  intro state action following accounted configured stepped
  cases stepped
  exact accounted.step configured

theorem bufferedBytes_eq (accounted : Accounted reassembler) :
    reassembler.bufferedBytes =
      (reassembler.frames.values.map fun state => (state.fragments.map fragmentSize).sum).sum := by
  have same : (fun state : FrameState => (state.fragments.map fragmentSize).sum) =
      FrameState.bytes := funext fun state => state.measured.symm
  rw [accounted.measured, same, SortedMap.weight, SortedMap.values, map_map]
  rfl

end SwVtpFrameReassembler

end SwStack.SwVtp

/-! A frame on its way: its fragments in any order, again and again or never, among the datagrams of
other frames. The reassembler collects the fragments of the frame and starts over when it is
complete. -/
namespace SwStack.SwVtp

open SwStack.Lib

/-- A frame as its sender cut it. -/
structure SentFrame where
  key : FrameKey
  codec : SwVtpCodec
  ptsUs : UInt64
  deadlineUs : UInt64
  keyFrame : Bool
  discontinuity : Bool
  fragments : List Bytes
  known : swVtpVideoCodecToPacketCodec codec ≠ .unknown
  nonempty : fragments ≠ []
  count : fragments.length ≤ 0xffff
  sizes : ∀ fragment ∈ fragments, fragment.length ≤ 0xffff

namespace SentFrame

variable (frame : SentFrame)

/-- The packet with the payload and the flags of the frame. -/
def packet : SwVideoPacket where
  codec := swVtpVideoCodecToPacketCodec frame.codec
  payload := frame.fragments.flatten
  pts := frame.ptsUs.toInt64
  dts := frame.ptsUs.toInt64
  keyFrame := frame.keyFrame
  clockRate := 1000000
  discontinuity := frame.discontinuity

def size : Nat := (frame.fragments.map List.length).sum

/-- All fragments of the frame. -/
def goal : Finset Nat := Finset.range frame.fragments.length

/-- A header for a fragment of the frame. The layers, the other flags and the other times are free. -/
structure Carries (header : SwVtpHeader) (index : Nat) : Prop where
  version : header.version = kSwVtpVersion1
  messageType : header.messageType = .frameFragment
  trackType : header.trackType = .video
  codec : header.codec = frame.codec
  key : header.frameKey = frame.key
  index : header.fragmentIndex.toNat = index
  count : header.fragmentCount.toNat = frame.fragments.length
  ptsUs : header.ptsUs = frame.ptsUs
  deadlineUs : header.deadlineUs = frame.deadlineUs
  keyFrame : header.hasFlag SwVtpFlag_KeyFrame = frame.keyFrame
  discontinuity : header.hasFlag SwVtpFlag_Discontinuity = frame.discontinuity

/-- What a call is to the frame: one of its fragments, or something else. -/
inductive Delivery : Action → Option Nat → Prop where
  | fragment : frame.Carries header index → frame.fragments[index]? = some payload →
      Delivery (.pushSerializedDatagram (swVtpSerializeDatagramPayload header payload) nowUs)
        (some index)
  | foreignBytes : (∀ datagram, swVtpParseDatagram bytes = some datagram →
      datagram.isVideoFragment = true → datagram.header.frameKey ≠ frame.key) →
      Delivery (.pushSerializedDatagram bytes nowUs) none
  | foreignDatagram : (datagram.isVideoFragment = true → datagram.header.frameKey ≠ frame.key) →
      Delivery (.pushDatagram datagram nowUs) none
  | expire : Delivery (.expire nowUs) none

def waiting (held : Finset Nat) : List (Option Bytes) :=
  frame.fragments.mapIdx fun index fragment => if index ∈ held then some fragment else none

variable {frame}

@[simp] theorem length_waiting (held : Finset Nat) :
    (frame.waiting held).length = frame.fragments.length := List.length_mapIdx

theorem getElem?_waiting (held : Finset Nat) (index : Nat) :
    (frame.waiting held)[index]? =
      frame.fragments[index]?.map fun fragment => if index ∈ held then some fragment else none :=
  List.getElem?_mapIdx

theorem waiting_empty : frame.waiting ∅ = List.replicate frame.fragments.length none := by
  refine List.ext_getElem? fun index => ?_
  rw [getElem?_waiting, List.getElem?_replicate]
  by_cases inside : index < frame.fragments.length
  · rw [List.getElem?_eq_getElem inside, if_pos inside]
    rfl
  · rw [List.getElem?_eq_none (not_lt.mp inside), if_neg inside]
    rfl

variable {held : Finset Nat} {index : Nat}

theorem waiting_insert (found : frame.fragments[index]? = some payload) :
    (frame.waiting held).set index (some payload) = frame.waiting (insert index held) := by
  refine List.ext_getElem? fun other => ?_
  rw [List.getElem?_set, getElem?_waiting, getElem?_waiting, length_waiting]
  by_cases same : index = other
  · subst same
    have inside := (List.getElem?_eq_some_iff.mp found).1
    rw [if_pos rfl, if_pos inside, found, Option.map_some, if_pos (Finset.mem_insert_self _ _)]
  · have other_mem : other ∈ insert index held ↔ other ∈ held := by
      rw [Finset.mem_insert, or_iff_right (Ne.symm same)]
    simp [same, other_mem]

theorem received_waiting (found : frame.fragments[index]? = some payload) :
    ((frame.waiting held)[index]?.getD none).isSome = decide (index ∈ held) := by
  rw [getElem?_waiting, found]
  by_cases member : index ∈ held
  · simp [member]
  · simp [member]

/-- All fragments are there exactly when the goal is reached. -/
theorem countP_waiting (held : Finset Nat) :
    (frame.waiting held).countP Option.isSome = (frame.waiting held).length ↔
      frame.goal ⊆ held := by
  rw [List.countP_eq_length]
  constructor
  · intro all index member
    have inside : index < frame.fragments.length := Finset.mem_range.mp member
    have there := all _ (List.mem_of_getElem? ((getElem?_waiting held index).trans
      (by rw [List.getElem?_eq_getElem inside, Option.map_some])))
    by_contra missing
    rw [if_neg missing] at there
    cases there
  · intro complete fragment member
    obtain ⟨index, found⟩ := List.mem_iff_getElem?.mp member
    rw [getElem?_waiting, Option.map_eq_some_iff] at found
    obtain ⟨payload, at', rfl⟩ := found
    have inside := (List.getElem?_eq_some_iff.mp at').1
    rw [if_pos (complete (Finset.mem_range.mpr inside))]
    rfl

theorem waiting_complete (complete : frame.goal ⊆ held) :
    frame.waiting held = frame.fragments.map some := by
  refine List.ext_getElem? fun index => ?_
  rw [getElem?_waiting, List.getElem?_map]
  cases found : frame.fragments[index]? with
  | none => rfl
  | some payload =>
    have inside := (List.getElem?_eq_some_iff.mp found).1
    rw [Option.map_some, if_pos (complete (Finset.mem_range.mpr inside))]
    rfl

theorem size_waiting (held : Finset Nat) :
    ((frame.waiting held).map fragmentSize).sum ≤ frame.size := by
  refine List.Forall₂.sum_le_sum (List.forall₂_iff_get.mpr ⟨by simp, ?_⟩)
  intro index inside other
  simp only [List.get_eq_getElem, List.getElem_map, waiting, List.getElem_mapIdx]
  split
  · exact le_rfl
  · exact Nat.zero_le _

/-- What a state of the frame is when it holds some fragments. -/
structure Partial (frame : SentFrame) (state : FrameState) (held : Finset Nat) : Prop where
  codec : state.codec = frame.codec
  deadlineUs : state.deadlineUs = frame.deadlineUs
  ptsUs : state.firstHeader.ptsUs = frame.ptsUs
  fragments : state.fragments = frame.waiting held
  keyFrame : state.keyFrame = true → frame.keyFrame = true
  discontinuity : state.discontinuity = true → frame.discontinuity = true

/-- The reassembler has some fragments of the frame, but not all. -/
structure Collecting (frame : SentFrame) (reassembler : SwVtpFrameReassembler)
    (held : Finset Nat) : Prop where
  absent : reassembler.frames.find? frame.key = none → held = ∅
  present : ∀ state, reassembler.frames.find? frame.key = some state → frame.Partial state held
  incomplete : ¬ frame.goal ⊆ held
  fits : frame.size ≤ reassembler.maxFrameBytes

theorem goal_nonempty (frame : SentFrame) : frame.goal.Nonempty :=
  Finset.nonempty_range_iff.mpr fun empty => frame.nonempty (List.length_eq_zero_iff.mp empty)

theorem partial_initial
    (carries : frame.Carries header index) : frame.Partial (.initial header) ∅ where
  codec := carries.codec
  deadlineUs := carries.deadlineUs
  ptsUs := carries.ptsUs
  fragments := by
    rw [waiting_empty, ← carries.count]
    rfl
  keyFrame none := by cases none
  discontinuity none := by cases none

theorem Partial.store {state : FrameState} (partly : frame.Partial state held)
    (carries : frame.Carries header index) (found : frame.fragments[index]? = some payload)
    (missing : index ∉ held) :
    frame.Partial (state.store header payload) (insert index held) ∧
      (state.store header payload).keyFrame = frame.keyFrame ∧
      (state.store header payload).discontinuity = frame.discontinuity := by
  have there : state.fragments[header.fragmentIndex.toNat]? = some none := by
    rw [partly.fragments, carries.index, getElem?_waiting, found, Option.map_some,
      if_neg missing]
  have fragments := (SwVtpFrameReassembler.store_missing payload there).2
  rw [partly.fragments, carries.index, waiting_insert found] at fragments
  have keyFrame : (state.store header payload).keyFrame = frame.keyFrame := by
    unfold FrameState.store
    rw [dif_pos there]
    dsimp only
    rw [carries.keyFrame, Bool.or_eq_right_iff_imp]
    exact partly.keyFrame
  have discontinuity : (state.store header payload).discontinuity = frame.discontinuity := by
    unfold FrameState.store
    rw [dif_pos there]
    dsimp only
    rw [carries.discontinuity, Bool.or_eq_right_iff_imp]
    exact partly.discontinuity
  have rest : (state.store header payload).codec = state.codec ∧
      (state.store header payload).deadlineUs = state.deadlineUs ∧
      (state.store header payload).firstHeader = state.firstHeader := by
    unfold FrameState.store
    rw [dif_pos there]
    exact ⟨rfl, rfl, rfl⟩
  refine ⟨⟨?_, ?_, ?_, fragments, fun set => keyFrame ▸ set, fun set => discontinuity ▸ set⟩,
    keyFrame, discontinuity⟩
  · rw [rest.1, partly.codec]
  · rw [rest.2.1, partly.deadlineUs]
  · rw [rest.2.2, partly.ptsUs]

theorem Partial.packet (whole : frame.Partial state held)
    (complete : frame.goal ⊆ held) (keyFrame : state.keyFrame = frame.keyFrame)
    (discontinuity : state.discontinuity = frame.discontinuity) : state.packet = frame.packet := by
  unfold FrameState.packet SentFrame.packet
  rw [whole.codec, whole.ptsUs, keyFrame, discontinuity, whole.fragments,
    waiting_complete complete, List.flatMap_map]
  simp only [Option.getD_some, List.flatMap_id']

end SentFrame

end SwStack.SwVtp
