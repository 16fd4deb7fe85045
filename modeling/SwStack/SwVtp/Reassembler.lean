import SwStack.Lib.MapWeight
import SwStack.SwVtp.Protocol

/-! The frame reassembler: fragments wait by frame, and the frame leaves when none is missing, when
its deadline passes or when too many frames wait. -/
namespace SwStack.SwVtp

open SwStack.Lib List

inductive Codec where
  | unknown
  | h264
  | h265
  | av1
  deriving DecidableEq

def swVtpVideoCodecToPacketCodec (codec : SwVtpCodec) : Codec :=
  if codec = .h264 then .h264
  else if codec = .h265 then .h265
  else if codec = .av1 then .av1
  else .unknown

structure SwVideoPacket where
  codec : Codec
  payload : Bytes
  pts : Int64
  dts : Int64
  keyFrame : Bool
  clockRate : Nat
  discontinuity : Bool
  deriving DecidableEq

structure FrameKey where
  streamId : UInt16
  trackId : UInt16
  frameId : UInt32
  deriving DecidableEq

namespace FrameKey

/-- Keys compare by stream, then by track, then by frame. -/
def rank (key : FrameKey) : Nat :=
  (key.streamId.toNat * 2 ^ 16 + key.trackId.toNat) * 2 ^ 32 + key.frameId.toNat

theorem rank_injective : Function.Injective rank := by
  intro left right same
  obtain ⟨streamId, trackId, frameId⟩ := left
  obtain ⟨otherStream, otherTrack, otherFrame⟩ := right
  simp only [rank] at same
  have tracks := trackId.toNat_lt
  have otherTracks := otherTrack.toNat_lt
  have frames := frameId.toNat_lt
  have otherFrames := otherFrame.toNat_lt
  have streams : streamId = otherStream := UInt16.toNat_inj.mp (by omega)
  have tracks : trackId = otherTrack := UInt16.toNat_inj.mp (by omega)
  have frames : frameId = otherFrame := UInt32.toNat_inj.mp (by omega)
  rw [streams, tracks, frames]

instance instLinearOrderFrameKey : LinearOrder FrameKey := LinearOrder.lift' rank rank_injective

end FrameKey

def fragmentSize (fragment : Option Bytes) : Nat := (fragment.getD []).length

/-- A frame in the making. A fragment that has not been received is `none`. -/
structure FrameState where
  firstHeader : SwVtpHeader
  codec : SwVtpCodec
  deadlineUs : UInt64
  fragments : List (Option Bytes)
  receivedCount : Nat
  bytes : Nat
  keyFrame : Bool
  discontinuity : Bool
  codecConfig : Bool
  counted : receivedCount = fragments.countP Option.isSome
  measured : bytes = (fragments.map fragmentSize).sum
  deriving DecidableEq

namespace FrameState

/-- The state that a frame starts with at its first header. -/
def initial (header : SwVtpHeader) : FrameState where
  firstHeader := header
  codec := header.codec
  deadlineUs := header.deadlineUs
  fragments := List.replicate header.fragmentCount.toNat none
  receivedCount := 0
  bytes := 0
  keyFrame := false
  discontinuity := false
  codecConfig := false
  counted := by rw [countP_replicate, if_neg (by simp)]
  measured := by rw [map_replicate, sum_replicate]; rfl

def received (state : FrameState) (index : Nat) : Bool :=
  (state.fragments[index]?.getD none).isSome

theorem set_missing {fragments : List (Option Bytes)} {index : Nat} (payload : Bytes)
    (missing : fragments[index]? = some none) :
    (fragments.set index (some payload)).countP Option.isSome =
        fragments.countP Option.isSome + 1 ∧
      ((fragments.set index (some payload)).map fragmentSize).sum =
        (fragments.map fragmentSize).sum + payload.length := by
  induction fragments generalizing index with
  | nil => simp at missing
  | cons fragment fragments ih =>
    cases index with
    | zero =>
      cases Option.some.inj missing
      simp [fragmentSize, Nat.add_comm]
    | succ index =>
      obtain ⟨count, size⟩ := ih missing
      rw [set_cons_succ, countP_cons, countP_cons, count, map_cons,
        map_cons, sum_cons, sum_cons, size]
      exact ⟨Nat.add_right_comm _ _ _, (Nat.add_assoc _ _ _).symm⟩

/-- Stores a fragment that is missing; there is no other call. -/
def store (state : FrameState) (header : SwVtpHeader) (payload : Bytes) : FrameState :=
  if missing : state.fragments[header.fragmentIndex.toNat]? = some none then
    { state with
      fragments := state.fragments.set header.fragmentIndex.toNat (some payload)
      receivedCount := state.receivedCount + 1
      bytes := state.bytes + payload.length
      keyFrame := state.keyFrame || header.hasFlag SwVtpFlag_KeyFrame
      discontinuity := state.discontinuity || header.hasFlag SwVtpFlag_Discontinuity
      codecConfig := state.codecConfig || header.hasFlag SwVtpFlag_CodecConfig
      counted := by rw [(set_missing payload missing).1, state.counted]
      measured := by rw [(set_missing payload missing).2, state.measured] }
  else state

/-- The packet of a complete frame. -/
def packet (state : FrameState) : SwVideoPacket where
  codec := swVtpVideoCodecToPacketCodec state.codec
  payload := state.fragments.flatMap fun fragment => fragment.getD []
  pts := state.firstHeader.ptsUs.toInt64
  dts := state.firstHeader.ptsUs.toInt64
  keyFrame := state.keyFrame
  clockRate := 1000000
  discontinuity := state.discontinuity

def expired (state : FrameState) (nowUs : UInt64) : Bool :=
  state.deadlineUs ≠ 0 && state.deadlineUs < nowUs

/-- Whether a frame goes before another one when there are too many. -/
def older (state oldest : FrameState) : Bool :=
  (state.deadlineUs ≠ 0 && oldest.deadlineUs = 0) ||
    (state.deadlineUs ≠ 0 && oldest.deadlineUs ≠ 0 && state.deadlineUs < oldest.deadlineUs)

end FrameState

inductive PushResult where
  | invalid
  | accepted
  | duplicate
  | completed (packet : SwVideoPacket)
  | stale
  deriving DecidableEq

structure SwVtpFrameReassembler where
  frames : SortedMap FrameKey FrameState
  maxBufferedFrames : Nat
  maxFrameBytes : Nat
  bufferedBytes : Nat
  acceptedFragments : Nat
  duplicateFragments : Nat
  completedFrames : Nat
  staleFragments : Nat
  droppedFrames : Nat
  deriving DecidableEq

/-- A reassembler as it is constructed. -/
def SwVtpFrameReassembler.new : SwVtpFrameReassembler where
  frames := ∅
  maxBufferedFrames := 64
  maxFrameBytes := 16 * 1024 * 1024
  bufferedBytes := 0
  acceptedFragments := 0
  duplicateFragments := 0
  completedFrames := 0
  staleFragments := 0
  droppedFrames := 0

def SwVtpHeader.frameKey (header : SwVtpHeader) : FrameKey where
  streamId := header.streamId
  trackId := header.trackId
  frameId := header.frameId

/-- What a datagram must be to reach the frames. -/
def SwVtpDatagram.isVideoFragment (datagram : SwVtpDatagram) : Bool :=
  datagram.header.messageType = .frameFragment && datagram.header.trackType = .video &&
    swVtpVideoCodecToPacketCodec datagram.header.codec ≠ .unknown &&
    datagram.header.fragmentCount ≠ 0 &&
    datagram.header.fragmentIndex < datagram.header.fragmentCount &&
    datagram.payload.length = datagram.header.payloadBytes.toNat

namespace SwVtpFrameReassembler

variable (reassembler : SwVtpFrameReassembler)

def setLimits (maxBufferedFrames maxFrameBytes : Nat) : SwVtpFrameReassembler :=
  { reassembler with
    maxBufferedFrames := if maxBufferedFrames = 0 then 1 else maxBufferedFrames
    maxFrameBytes := if maxFrameBytes = 0 then 1 else maxFrameBytes }

def reset : SwVtpFrameReassembler :=
  { reassembler with
    frames := ∅
    bufferedBytes := 0
    acceptedFragments := 0
    duplicateFragments := 0
    completedFrames := 0
    staleFragments := 0
    droppedFrames := 0 }

/-- The entry is gone, and so are its bytes; the difference is cut at zero. -/
def erase (key : FrameKey) (state : FrameState) : SwVtpFrameReassembler :=
  { reassembler with
    frames := reassembler.frames.erase key
    bufferedBytes := reassembler.bufferedBytes - state.bytes }

def dropFrame (key : FrameKey) : SwVtpFrameReassembler :=
  match reassembler.frames.find? key with
  | none => reassembler
  | some state =>
    { reassembler.erase key state with droppedFrames := reassembler.droppedFrames + 1 }

def expire (nowUs : UInt64) : SwVtpFrameReassembler :=
  let expired := reassembler.frames.entries.filter fun entry => entry.2.expired nowUs
  { reassembler with
    frames := reassembler.frames.filter fun _ state => !state.expired nowUs
    bufferedBytes := expired.foldl (fun total entry => total - entry.2.bytes)
      reassembler.bufferedBytes
    droppedFrames := reassembler.droppedFrames + expired.length }

/-- The first of the oldest entries. -/
def oldest? : List (FrameKey × FrameState) → Option (FrameKey × FrameState)
  | [] => none
  | first :: rest =>
    some (rest.foldl (fun oldest entry => if entry.2.older oldest.2 then entry else oldest) first)

def dropOldest : SwVtpFrameReassembler :=
  match oldest? reassembler.frames.entries with
  | none => reassembler
  | some (key, state) =>
    { reassembler.erase key state with droppedFrames := reassembler.droppedFrames + 1 }

/-- Every round of the loop drops one frame, so their number is known. -/
def trimBufferedFrames : SwVtpFrameReassembler :=
  dropOldest^[reassembler.frames.size - reassembler.maxBufferedFrames] reassembler

/-- A fragment for a frame whose sizes agree with it. -/
def storeFragment (key : FrameKey) (state : FrameState) (header : SwVtpHeader) (payload : Bytes) :
    SwVtpFrameReassembler × PushResult :=
  let stored := state.store header payload
  let held :=
    { reassembler with
      frames := reassembler.frames.insert key stored
      bufferedBytes := reassembler.bufferedBytes + payload.length
      acceptedFragments := reassembler.acceptedFragments + 1 }
  if stored.receivedCount = stored.fragments.length then
    ({ held.erase key stored with completedFrames := held.completedFrames + 1 },
      .completed stored.packet)
  else (held.trimBufferedFrames, .accepted)

/-- A fragment for the frame of a key, in the reassembler that already holds its entry. -/
def pushFragment (key : FrameKey) (state : FrameState) (header : SwVtpHeader) (payload : Bytes) :
    SwVtpFrameReassembler × PushResult :=
  if state.fragments.length ≠ header.fragmentCount.toNat ∨ state.codec ≠ header.codec then
    (reassembler.dropFrame key, .invalid)
  else if state.received header.fragmentIndex.toNat then
    ({ reassembler with duplicateFragments := reassembler.duplicateFragments + 1 }, .duplicate)
  else if reassembler.maxFrameBytes < state.bytes + payload.length then
    (reassembler.dropFrame key, .invalid)
  else reassembler.storeFragment key state header payload

def pushDatagram (datagram : SwVtpDatagram) (nowUs : UInt64) :
    SwVtpFrameReassembler × PushResult :=
  let header := datagram.header
  if !datagram.isVideoFragment then (reassembler, .invalid)
  else if header.deadlineUs ≠ 0 ∧ header.deadlineUs < nowUs then
    ({ reassembler with staleFragments := reassembler.staleFragments + 1 }, .stale)
  else
    let current := reassembler.expire nowUs
    let key := header.frameKey
    let state := (current.frames.find? key).getD (.initial header)
    let entered := { current with frames := current.frames.insert key state }
    entered.pushFragment key state header datagram.payload

def pushSerializedDatagram (bytes : Bytes) (nowUs : UInt64) :
    SwVtpFrameReassembler × PushResult :=
  match swVtpParseDatagram bytes with
  | none => (reassembler, .invalid)
  | some datagram => reassembler.pushDatagram datagram nowUs

end SwVtpFrameReassembler

inductive Action where
  | setLimits (maxBufferedFrames maxFrameBytes : Nat)
  | reset
  | pushSerializedDatagram (bytes : Bytes) (nowUs : UInt64)
  | pushDatagram (datagram : SwVtpDatagram) (nowUs : UInt64)
  | expire (nowUs : UInt64)

/-- What a call leaves, and what a push returned. -/
def step (reassembler : SwVtpFrameReassembler) :
    Action → SwVtpFrameReassembler × Option PushResult
  | .setLimits maxBufferedFrames maxFrameBytes =>
    (reassembler.setLimits maxBufferedFrames maxFrameBytes, none)
  | .reset => (reassembler.reset, none)
  | .pushSerializedDatagram bytes nowUs =>
    let (next, result) := reassembler.pushSerializedDatagram bytes nowUs
    (next, some result)
  | .pushDatagram datagram nowUs =>
    let (next, result) := reassembler.pushDatagram datagram nowUs
    (next, some result)
  | .expire nowUs => (reassembler.expire nowUs, none)

/-- What the calls of a run returned. -/
def results (reassembler : SwVtpFrameReassembler) : List Action → List (Option PushResult)
  | [] => []
  | action :: actions =>
    (step reassembler action).2 :: results (step reassembler action).1 actions

end SwStack.SwVtp
