import SwStack.SwVtp.Transport

/-! What a call does to a frame in the making, and from it what a run delivers: the reassembler acts
as a collector of the frame's fragments. -/
namespace SwStack.SwVtp

open SwStack.Lib

def Action.nowUs? : Action → Option UInt64
  | .pushSerializedDatagram _ nowUs => some nowUs
  | .pushDatagram _ nowUs => some nowUs
  | .expire nowUs => some nowUs
  | .setLimits _ _ => none
  | .reset => none

def Action.datagram? : Action → Option SwVtpDatagram
  | .pushSerializedDatagram bytes _ => swVtpParseDatagram bytes
  | .pushDatagram datagram _ => some datagram
  | _ => none

/-- Before the deadline of the frame, and within the number of frames that may wait. -/
structure Within (frame : SentFrame) (reassembler : SwVtpFrameReassembler) (action : Action) :
    Prop where
  timely : ∀ nowUs, action.nowUs? = some nowUs → frame.deadlineUs = 0 ∨ nowUs ≤ frame.deadlineUs
  room : ∀ datagram, action.datagram? = some datagram → datagram.isVideoFragment = true →
    (reassembler.frames.erase datagram.header.frameKey).size < reassembler.maxBufferedFrames

/-- A condition on every call of a run, in the state it meets. -/
def Throughout (holds : SwVtpFrameReassembler → Action → Prop)
    (reassembler : SwVtpFrameReassembler) : List Action → Prop
  | [] => True
  | action :: actions =>
    holds reassembler action ∧ Throughout holds (step reassembler action).1 actions

variable {state : FrameState}

namespace SwVtpFrameReassembler

variable {reassembler : SwVtpFrameReassembler}

/-- Nothing changes but the frame of a key. -/
structure SameElsewhere (key : FrameKey) (before after : SwVtpFrameReassembler) : Prop where
  frames : ∀ other, other ≠ key → after.frames.find? other = before.frames.find? other
  maxFrameBytes : after.maxFrameBytes = before.maxFrameBytes

theorem sameElsewhere_dropFrame (key : FrameKey) :
    SameElsewhere key reassembler (reassembler.dropFrame key) := by
  unfold dropFrame
  cases reassembler.frames.find? key with
  | none => exact ⟨fun _ _ => rfl, rfl⟩
  | some state =>
    refine ⟨fun other different => ?_, rfl⟩
    exact (SortedMap.find?_erase _ _ _).trans (if_neg different)

theorem trimBufferedFrames_of_limited
    (limited : reassembler.frames.size ≤ reassembler.maxBufferedFrames) :
    reassembler.trimBufferedFrames = reassembler := by
  unfold trimBufferedFrames
  rw [Nat.sub_eq_zero_of_le limited]
  rfl

/-- A fragment is stored where there is room: nothing is dropped. -/
theorem storeFragment_cases {key : FrameKey} {state : FrameState} {header : SwVtpHeader}
    {payload : Bytes}
    (room : (reassembler.frames.erase key).size < reassembler.maxBufferedFrames) :
    ∃ after, (((state.store header payload).receivedCount =
            (state.store header payload).fragments.length ∧
          reassembler.storeFragment key state header payload =
            (after, .completed (state.store header payload).packet) ∧
          after.frames = (reassembler.frames.insert key (state.store header payload)).erase key) ∨
        ((state.store header payload).receivedCount ≠
            (state.store header payload).fragments.length ∧
          reassembler.storeFragment key state header payload = (after, .accepted) ∧
          after.frames = reassembler.frames.insert key (state.store header payload))) ∧
      after.maxFrameBytes = reassembler.maxFrameBytes := by
  unfold storeFragment
  dsimp only
  split
  · rename_i complete
    exact ⟨_, Or.inl ⟨complete, rfl, rfl⟩, rfl⟩
  · rename_i incomplete
    have inserted := SortedMap.size_insert reassembler.frames key (state.store header payload)
    rw [trimBufferedFrames_of_limited (by dsimp only; omega)]
    exact ⟨_, Or.inr ⟨incomplete, rfl, rfl⟩, rfl⟩

theorem sameElsewhere_pushFragment
    (room : (reassembler.frames.erase key).size < reassembler.maxBufferedFrames) :
    SameElsewhere key reassembler (reassembler.pushFragment key state header payload).1 := by
  unfold pushFragment
  split
  · exact sameElsewhere_dropFrame key
  split
  · exact ⟨fun _ _ => rfl, rfl⟩
  split
  · exact sameElsewhere_dropFrame key
  obtain ⟨after, ⟨_, pushed, frames⟩ | ⟨_, pushed, frames⟩, same⟩ :=
    @storeFragment_cases reassembler _ state header payload room
  · rw [pushed]
    refine ⟨fun other different => ?_, same⟩
    rw [frames, SortedMap.find?_erase, if_neg different, SortedMap.find?_insert, if_neg different]
  · rw [pushed]
    refine ⟨fun other different => ?_, same⟩
    rw [frames, SortedMap.find?_insert, if_neg different]

theorem size_erase_expire (nowUs : UInt64) (key : FrameKey) :
    ((reassembler.expire nowUs).frames.erase key).size ≤ (reassembler.frames.erase key).size := by
  refine List.Sublist.length_le ?_
  exact (List.filter_sublist).filter _

end SwVtpFrameReassembler

namespace SentFrame

open SwVtpFrameReassembler

variable {frame : SentFrame} {reassembler : SwVtpFrameReassembler}

theorem not_expired (deadlineUs : state.deadlineUs = frame.deadlineUs)
    (timely : frame.deadlineUs = 0 ∨ nowUs ≤ frame.deadlineUs) : state.expired nowUs = false := by
  unfold FrameState.expired
  rw [deadlineUs]
  obtain never | before := timely
  · simp [never]
  · simp [UInt64.not_lt.mpr before]

theorem Collecting.sameElsewhere (collecting : frame.Collecting reassembler held)
    {key : FrameKey} (foreign : key ≠ frame.key)
    (same : SameElsewhere key reassembler after) : frame.Collecting after held where
  absent := by
    rw [same.frames _ (Ne.symm foreign)]
    exact collecting.absent
  present := by
    rw [same.frames _ (Ne.symm foreign)]
    exact collecting.present
  incomplete := collecting.incomplete
  fits := by
    rw [same.maxFrameBytes]
    exact collecting.fits

theorem Collecting.expire (collecting : frame.Collecting reassembler held) {nowUs : UInt64}
    (timely : frame.deadlineUs = 0 ∨ nowUs ≤ frame.deadlineUs) :
    frame.Collecting (reassembler.expire nowUs) held := by
  have same : (reassembler.expire nowUs).frames.find? frame.key =
      reassembler.frames.find? frame.key := by
    refine (SortedMap.find?_filter _ _ _).trans ?_
    cases found : reassembler.frames.find? frame.key with
    | none => rfl
    | some state =>
      rw [Option.filter_some, not_expired (collecting.present state found).deadlineUs timely]
      rfl
  refine ⟨?_, ?_, collecting.incomplete, collecting.fits⟩
  · rw [same]
    exact collecting.absent
  · rw [same]
    exact collecting.present

theorem Collecting.pushForeign (collecting : frame.Collecting reassembler held)
    (timely : frame.deadlineUs = 0 ∨ nowUs ≤ frame.deadlineUs)
    (room : datagram.isVideoFragment = true →
      (reassembler.frames.erase datagram.header.frameKey).size < reassembler.maxBufferedFrames)
    (foreign : datagram.isVideoFragment = true → datagram.header.frameKey ≠ frame.key) :
    frame.Collecting (reassembler.pushDatagram datagram nowUs).1 held := by
  unfold pushDatagram
  dsimp only
  split
  · exact collecting
  rename_i video
  rw [Bool.not_eq_true, Bool.not_eq_false'] at video
  split
  · exact ⟨collecting.absent, collecting.present, collecting.incomplete, collecting.fits⟩
  have entered : SameElsewhere datagram.header.frameKey (reassembler.expire nowUs)
      { reassembler.expire nowUs with
        frames := (reassembler.expire nowUs).frames.insert datagram.header.frameKey
          (((reassembler.expire nowUs).frames.find? datagram.header.frameKey).getD
            (.initial datagram.header)) } :=
    ⟨fun other different => (SortedMap.find?_insert _ _ _ _).trans (if_neg different), rfl⟩
  refine ((collecting.expire timely).sameElsewhere (foreign video) entered).sameElsewhere
    (foreign video) (sameElsewhere_pushFragment ?_)
  rw [SortedMap.erase_insert]
  exact (size_erase_expire nowUs _).trans_lt (room video)

variable {index : Nat}

theorem Collecting.pushFragment (found : reassembler.frames.find? frame.key = some state)
    (partly : frame.Partial state held) (incomplete : ¬ frame.goal ⊆ held)
    (fits : frame.size ≤ reassembler.maxFrameBytes)
    (room : (reassembler.frames.erase frame.key).size < reassembler.maxBufferedFrames)
    (carries : frame.Carries header index) (part : frame.fragments[index]? = some payload) :
    frame.Collecting (reassembler.pushFragment frame.key state header payload).1
        (Collector.step frame.goal held (some index)).1 ∧
      (if (Collector.step frame.goal held (some index)).2 then
        (reassembler.pushFragment frame.key state header payload).2 = .completed frame.packet
      else ∀ packet,
        (reassembler.pushFragment frame.key state header payload).2 ≠ .completed packet) := by
  have received : state.received header.fragmentIndex.toNat = decide (index ∈ held) := by
    rw [FrameState.received, partly.fragments, carries.index, received_waiting part]
  have agree : ¬ (state.fragments.length ≠ header.fragmentCount.toNat ∨
      state.codec ≠ header.codec) := by
    rw [partly.fragments, length_waiting, carries.count, partly.codec, carries.codec]
    simp
  unfold SwVtpFrameReassembler.pushFragment
  rw [if_neg agree, received]
  by_cases member : index ∈ held
  · have same : insert index held = held := Finset.insert_eq_of_mem member
    have stepped : Collector.step frame.goal held (some index) = (insert index held, false) :=
      if_neg (by rwa [same])
    rw [same] at stepped
    rw [decide_eq_true member, if_pos rfl, stepped]
    refine ⟨⟨fun absent => ?_, fun other there => ?_, incomplete, fits⟩, fun packet => ?_⟩
    · cases found.symm.trans absent
    · cases found.symm.trans there
      exact partly
    · exact fun same => by cases same
  rw [decide_eq_false member, if_neg Bool.false_ne_true]
  obtain ⟨stored, keyFrame, discontinuity⟩ := partly.store carries part member
  have there : state.fragments[header.fragmentIndex.toNat]? = some none := by
    rw [partly.fragments, carries.index, getElem?_waiting, part, Option.map_some,
      if_neg member]
  have bytes := (store_missing payload there).1
  have total := @size_waiting frame (insert index held)
  rw [← stored.fragments, ← FrameState.measured, bytes] at total
  rw [if_neg (by omega)]
  have count : (state.store header payload).receivedCount =
      (state.store header payload).fragments.length ↔ frame.goal ⊆ insert index held := by
    rw [FrameState.counted, stored.fragments]
    exact countP_waiting _
  obtain ⟨after, ⟨whole, pushed, frames⟩ | ⟨partial', pushed, frames⟩, same⟩ :=
    @storeFragment_cases reassembler _ state header payload room
  · have complete := count.mp whole
    have stepped : Collector.step frame.goal held (some index) = (∅, true) := if_pos complete
    rw [pushed, stepped, stored.packet complete keyFrame discontinuity]
    refine ⟨⟨fun _ => rfl, fun other there => ?_, fun all => ?_, same ▸ fits⟩, rfl⟩
    · rw [frames, SortedMap.find?_erase, if_pos rfl] at there
      cases there
    · exact (goal_nonempty frame).ne_empty (Finset.subset_empty.mp all)
  · have missing : ¬ frame.goal ⊆ insert index held := fun complete => partial' (count.mpr complete)
    have stepped : Collector.step frame.goal held (some index) = (insert index held, false) :=
      if_neg missing
    rw [pushed, stepped]
    refine ⟨⟨fun absent => ?_, fun other there => ?_, missing, same ▸ fits⟩, fun packet => ?_⟩
    · rw [frames, SortedMap.find?_insert_self] at absent
      cases absent
    · rw [frames, SortedMap.find?_insert_self] at there
      cases there
      exact stored
    · exact fun same => by cases same

theorem Carries.isVideoFragment
    (carries : frame.Carries header index) (part : frame.fragments[index]? = some payload)
    (payloadBytes : payload.length = header.payloadBytes.toNat) :
    SwVtpDatagram.isVideoFragment { header, payload } = true := by
  have count : header.fragmentCount ≠ 0 := by
    intro empty
    have zero := carries.count
    rw [empty] at zero
    exact frame.nonempty (List.length_eq_zero_iff.mp zero.symm)
  have inside : header.fragmentIndex < header.fragmentCount := by
    rw [UInt16.lt_iff_toNat_lt, carries.index, carries.count]
    exact (List.getElem?_eq_some_iff.mp part).1
  simp [SwVtpDatagram.isVideoFragment, carries.messageType, carries.trackType, carries.codec,
    frame.known, count, inside, payloadBytes]

theorem Collecting.pushPart (collecting : frame.Collecting reassembler held)
    (timely : frame.deadlineUs = 0 ∨ nowUs ≤ frame.deadlineUs)
    (room : (reassembler.frames.erase frame.key).size < reassembler.maxBufferedFrames)
    (carries : frame.Carries header index) (part : frame.fragments[index]? = some payload)
    (payloadBytes : payload.length = header.payloadBytes.toNat) :
    frame.Collecting (reassembler.pushDatagram { header, payload } nowUs).1
        (Collector.step frame.goal held (some index)).1 ∧
      (if (Collector.step frame.goal held (some index)).2 then
        (reassembler.pushDatagram { header, payload } nowUs).2 = .completed frame.packet
      else ∀ packet, (reassembler.pushDatagram { header, payload } nowUs).2 ≠ .completed packet) := by
  have video := carries.isVideoFragment part payloadBytes
  have current : ¬ (header.deadlineUs ≠ 0 ∧ header.deadlineUs < nowUs) := by
    rw [carries.deadlineUs]
    obtain never | before := timely
    · exact fun late => late.1 never
    · exact fun late => UInt64.not_lt.mpr before late.2
  have before := collecting.expire timely
  unfold SwVtpFrameReassembler.pushDatagram
  dsimp only
  rw [video, Bool.not_true, if_neg Bool.false_ne_true, if_neg current, carries.key]
  have partly : frame.Partial
      (((reassembler.expire nowUs).frames.find? frame.key).getD (.initial header)) held := by
    cases found : (reassembler.expire nowUs).frames.find? frame.key with
    | none =>
      rw [before.absent found]
      exact partial_initial carries
    | some state => exact before.present state found
  refine Collecting.pushFragment (SortedMap.find?_insert_self _ _ _) partly collecting.incomplete
    collecting.fits ?_ carries part
  rw [SortedMap.erase_insert]
  exact (size_erase_expire nowUs _).trans_lt room

/-- What a call returns for a part of the frame. -/
def Answers (frame : SentFrame) (completed : Bool) (result : Option PushResult) : Prop :=
  if completed then result = some (.completed frame.packet)
  else ∀ packet, result ≠ some (.completed packet)

theorem Collecting.step (collecting : frame.Collecting reassembler held) {action : Action}
    {event : Option Nat} (delivery : frame.Delivery action event)
    (within : Within frame reassembler action) :
    frame.Collecting (step reassembler action).1 (Collector.step frame.goal held event).1 ∧
      ∀ index, event = some index →
        frame.Answers (Collector.step frame.goal held event).2 (SwVtp.step reassembler action).2 := by
  cases delivery with
  | @fragment header index payload nowUs carries part =>
    have fits := frame.sizes payload (List.mem_of_getElem? part)
    have parsed := parseDatagram_serialize carries.version
      (by rw [carries.messageType]; decide) fits
    have size : (UInt16.ofNat payload.length).toNat = payload.length :=
      UInt16.toNat_ofNat_of_lt (Nat.lt_succ_of_le fits)
    generalize filled : { header with
      headerBytes := kSwVtpHeaderBytes
      payloadBytes := UInt16.ofNat payload.length } = sent at parsed
    have sentCarries : frame.Carries sent index := by
      subst filled
      exact ⟨carries.version, carries.messageType, carries.trackType, carries.codec, carries.key,
        carries.index, carries.count, carries.ptsUs, carries.deadlineUs, carries.keyFrame,
        carries.discontinuity⟩
    have payloadBytes : payload.length = sent.payloadBytes.toNat := by rw [← filled, size]
    have video := sentCarries.isVideoFragment part payloadBytes
    have room := within.room _ parsed video
    rw [sentCarries.key] at room
    obtain ⟨after, answer⟩ := collecting.pushPart (within.timely nowUs rfl) room sentCarries part
      payloadBytes
    have pushed : reassembler.pushSerializedDatagram
        (swVtpSerializeDatagramPayload header payload) nowUs =
          reassembler.pushDatagram { header := sent, payload } nowUs := by
      unfold SwVtpFrameReassembler.pushSerializedDatagram
      rw [parsed]
    change frame.Collecting (reassembler.pushSerializedDatagram _ nowUs).1 _ ∧
      ∀ _, _ → frame.Answers _ (some (reassembler.pushSerializedDatagram _ nowUs).2)
    rw [pushed]
    refine ⟨after, fun _ _ => ?_⟩
    unfold Answers
    revert answer
    cases (Collector.step frame.goal held (some index)).2 with
    | true => exact fun answer => congrArg some answer
    | false => exact fun answer packet same => answer packet (Option.some.inj same)
  | @foreignBytes bytes nowUs foreign =>
    refine ⟨?_, fun index never => by cases never⟩
    change frame.Collecting (reassembler.pushSerializedDatagram bytes nowUs).1 held
    unfold SwVtpFrameReassembler.pushSerializedDatagram
    cases parsed : swVtpParseDatagram bytes with
    | none => exact collecting
    | some datagram =>
      exact collecting.pushForeign (within.timely nowUs rfl) (within.room datagram parsed)
        (foreign datagram parsed)
  | @foreignDatagram datagram nowUs foreign =>
    refine ⟨?_, fun index never => by cases never⟩
    exact collecting.pushForeign (within.timely nowUs rfl) (within.room datagram rfl) foreign
  | @expire nowUs =>
    refine ⟨?_, fun index never => by cases never⟩
    exact collecting.expire (within.timely nowUs rfl)

theorem run_true_part {goal held : Finset Nat} {events : List (Option Nat)} {position : Nat}
    (completed : (Collector.run goal held events)[position]? = some true) :
    ∃ index, events[position]? = some (some index) := by
  induction events generalizing held position with
  | nil => cases completed
  | cons event events ih =>
    cases position with
    | zero =>
      cases event with
      | none => cases completed
      | some index => exact ⟨index, rfl⟩
    | succ position => exact ih completed

/-- A whole run: where the frame's parts come, the calls answer as the collector does. -/
theorem Collecting.run {actions : List Action} {events : List (Option Nat)}
    (deliveries : List.Forall₂ frame.Delivery actions events)
    (collecting : frame.Collecting reassembler held)
    (within : Throughout (Within frame) reassembler actions) {position : Nat}
    (part : events[position]? = some (some index)) :
    ∃ completed result, (Collector.run frame.goal held events)[position]? = some completed ∧
      (results reassembler actions)[position]? = some result ∧
        frame.Answers completed result := by
  induction deliveries generalizing reassembler held position with
  | nil => cases part
  | @cons action event actions events delivery deliveries ih =>
    obtain ⟨after, answer⟩ := collecting.step delivery within.1
    cases position with
    | zero => exact ⟨_, _, rfl, rfl, answer index (Option.some.inj part)⟩
    | succ position => exact ih after within.2 part

/-- The frame is completed exactly when its last missing part comes, and with its own packet. -/
def CompletedOnce (frame : SentFrame) (returned : List (Option PushResult))
    (events : List (Option Nat)) : Prop :=
  (∀ position : Nat, (∃ (index : Nat) (packet : SwVideoPacket),
      events[position]? = some (some index) ∧
        returned[position]? = some (some (.completed packet))) ↔
    Collector.CompletedAt frame.goal ∅ events position) ∧
  ∀ (position index : Nat) (packet : SwVideoPacket), events[position]? = some (some index) →
    returned[position]? = some (some (.completed packet)) → packet = frame.packet

theorem Answers.completed_iff {completed : Bool} {result : Option PushResult}
    (answers : frame.Answers completed result) :
    (∃ packet, result = some (.completed packet)) ↔ completed = true := by
  unfold Answers at answers
  cases completed with
  | true => exact iff_of_true ⟨_, answers⟩ rfl
  | false => exact iff_of_false (fun ⟨packet, same⟩ => answers packet same) Bool.false_ne_true

theorem Answers.packet {completed : Bool} {packet : SwVideoPacket}
    (answers : frame.Answers completed (some (.completed packet))) : packet = frame.packet := by
  unfold Answers at answers
  cases completed with
  | true =>
    cases answers
    rfl
  | false => exact absurd rfl (answers packet)

theorem collecting_fresh (fresh : reassembler.frames.find? frame.key = none)
    (fits : frame.size ≤ reassembler.maxFrameBytes) : frame.Collecting reassembler ∅ where
  absent _ := rfl
  present state found := by cases fresh.symm.trans found
  incomplete all := (goal_nonempty frame).ne_empty (Finset.subset_empty.mp all)
  fits := fits

/-- The frame is completed once and as it was sent if and only if its fragments do not all come
again after it was completed; the buffer is accounted for in any case. -/
theorem completedOnce_iff {actions : List Action} {events : List (Option Nat)}
    (fresh : reassembler.frames.find? frame.key = none)
    (fits : frame.size ≤ reassembler.maxFrameBytes)
    (deliveries : List.Forall₂ frame.Delivery actions events)
    (within : Throughout (Within frame) reassembler actions) :
    (frame.CompletedOnce (results reassembler actions) events ∧
        ∀ reached, Reaches (fun state action => some (SwVtp.step state action).1) Configured .new
          reached →
          reached.bufferedBytes = (reached.frames.values.map fun state =>
            (state.fragments.map fragmentSize).sum).sum ∧
          reached.frames.size ≤ reached.maxBufferedFrames) ↔
      Collector.Single frame.goal ∅ events := by
  have collecting := collecting_fresh fresh fits
  have answers {position index : Nat} (part : events[position]? = some (some index)) :=
    collecting.run deliveries within part
  have same (position : Nat) : (∃ index packet, events[position]? = some (some index) ∧
      (results reassembler actions)[position]? = some (some (.completed packet))) ↔
        (Collector.run frame.goal ∅ events)[position]? = some true := by
    constructor
    · rintro ⟨index, packet, part, returned⟩
      obtain ⟨completed, result, ran, found, answer⟩ := answers part
      rw [ran]
      exact congrArg some (answer.completed_iff.mp
        ⟨packet, Option.some.inj (found.symm.trans returned)⟩)
    · intro ran
      obtain ⟨index, part⟩ := run_true_part ran
      obtain ⟨completed, result, also, found, answer⟩ := answers part
      obtain ⟨packet, completes⟩ :=
        answer.completed_iff.mpr (Option.some.inj (also.symm.trans ran))
      exact ⟨index, packet, part, found.trans (congrArg some completes)⟩
  rw [← Collector.completes_once_iff (goal_nonempty frame) collecting.incomplete]
  constructor
  · rintro ⟨⟨once, _⟩, _⟩ position
    rw [← once position, same position]
  · intro once
    refine ⟨⟨fun position => (same position).trans (once position), ?_⟩, fun reached run => ?_⟩
    · intro position index packet part returned
      obtain ⟨completed, result, _, found, answer⟩ := answers part
      cases Option.some.inj (found.symm.trans returned)
      exact answer.packet
    · have accounted := accounted_of_reaches run
      exact ⟨bufferedBytes_eq accounted, accounted.limited⟩

/-- A key frame in two fragments. -/
def twoFragments : SentFrame where
  key := { streamId := 1, trackId := 1, frameId := 1 }
  codec := .av1
  ptsUs := 7
  deadlineUs := 0
  keyFrame := true
  discontinuity := false
  fragments := [[1, 2], [3]]
  known := by decide
  nonempty := by decide
  count := by decide
  sizes := by decide

/-- A frame in a single fragment. -/
def oneFragment : SentFrame where
  key := { streamId := 1, trackId := 1, frameId := 1 }
  codec := .av1
  ptsUs := 7
  deadlineUs := 0
  keyFrame := true
  discontinuity := false
  fragments := [[1, 2]]
  known := by decide
  nonempty := by decide
  count := by decide
  sizes := by decide

def sampleHeader (fragmentIndex fragmentCount : UInt16) : SwVtpHeader where
  version := kSwVtpVersion1
  messageType := .frameFragment
  headerBytes := kSwVtpHeaderBytes
  flags := SwVtpFlag_KeyFrame
  streamId := 1
  trackId := 1
  trackType := .video
  codec := .av1
  temporalLayer := 0
  spatialLayer := 0
  frameId := 1
  fragmentIndex := fragmentIndex
  fragmentCount := fragmentCount
  payloadBytes := 0
  fecGroupId := 0
  ptsUs := 7
  captureTimeUs := 0
  deadlineUs := 0
  sendTimeUs := 0

/-- The call that a fragment makes. -/
def samplePush (fragmentIndex fragmentCount : UInt16) (payload : Bytes) : Action :=
  .pushSerializedDatagram
    (swVtpSerializeDatagramPayload (sampleHeader fragmentIndex fragmentCount) payload) 0

theorem sample_carries : twoFragments.Carries (sampleHeader 0 2) 0 ∧
    twoFragments.Carries (sampleHeader 1 2) 1 ∧ oneFragment.Carries (sampleHeader 0 1) 0 :=
  ⟨⟨rfl, rfl, rfl, rfl, rfl, rfl, rfl, rfl, rfl, rfl, rfl⟩,
    ⟨rfl, rfl, rfl, rfl, rfl, rfl, rfl, rfl, rfl, rfl, rfl⟩,
    ⟨rfl, rfl, rfl, rfl, rfl, rfl, rfl, rfl, rfl, rfl, rfl⟩⟩

theorem within_sample (deadlineUs : frame.deadlineUs = 0) (limit : reassembler.maxBufferedFrames = 64)
    (few : reassembler.frames.size ≤ 1) (fragmentIndex fragmentCount : UInt16) (payload : Bytes) :
    Within frame reassembler (samplePush fragmentIndex fragmentCount payload) where
  timely _ _ := Or.inl deadlineUs
  room datagram _ _ := by
    have smaller : (reassembler.frames.erase datagram.header.frameKey).size ≤
        reassembler.frames.size := SortedMap.size_filter_le _ _
    omega

theorem completedOnce_iff_disordered :
    (twoFragments.CompletedOnce
        (results .new [samplePush 1 2 [3], samplePush 1 2 [3], samplePush 0 2 [1, 2]])
        [some 1, some 1, some 0] ∧
      ∀ reached, Reaches (fun state action => some (SwVtp.step state action).1) Configured .new
        reached →
        reached.bufferedBytes = (reached.frames.values.map fun state =>
          (state.fragments.map fragmentSize).sum).sum ∧
        reached.frames.size ≤ reached.maxBufferedFrames) ↔
      Collector.Single twoFragments.goal ∅ [some 1, some 1, some 0] := by
  refine completedOnce_iff rfl (by decide) ?_ ?_
  · exact .cons (.fragment sample_carries.2.1 rfl) (.cons (.fragment sample_carries.2.1 rfl)
      (.cons (.fragment sample_carries.1 rfl) .nil))
  · exact ⟨within_sample rfl rfl (by decide +kernel) _ _ _,
      within_sample rfl (by decide +kernel) (by decide +kernel) _ _ _,
      within_sample rfl (by decide +kernel) (by decide +kernel) _ _ _, trivial⟩

/-- A datagram that comes twice completes its frame twice. -/
theorem completedOnce_fails_of_duplicate :
    List.Forall₂ oneFragment.Delivery [samplePush 0 1 [1, 2], samplePush 0 1 [1, 2]]
        [some 0, some 0] ∧
      Throughout (Within oneFragment) .new [samplePush 0 1 [1, 2], samplePush 0 1 [1, 2]] ∧
      results .new [samplePush 0 1 [1, 2], samplePush 0 1 [1, 2]] =
        [some (.completed oneFragment.packet), some (.completed oneFragment.packet)] ∧
      ¬ oneFragment.CompletedOnce
        (results .new [samplePush 0 1 [1, 2], samplePush 0 1 [1, 2]]) [some 0, some 0] := by
  have twice : results .new [samplePush 0 1 [1, 2], samplePush 0 1 [1, 2]] =
      [some (.completed oneFragment.packet), some (.completed oneFragment.packet)] := by
    decide +kernel
  refine ⟨?_, ?_, twice, ?_⟩
  · exact .cons (.fragment sample_carries.2.2 rfl) (.cons (.fragment sample_carries.2.2 rfl) .nil)
  · exact ⟨within_sample rfl rfl (by decide +kernel) _ _ _,
      within_sample rfl (by decide +kernel) (by decide +kernel) _ _ _, trivial⟩
  · rintro ⟨once, _⟩
    rw [twice] at once
    have second := (once 1).mp ⟨0, oneFragment.packet, rfl, rfl⟩
    exact second.2 (by decide)

end SentFrame

end SwStack.SwVtp
