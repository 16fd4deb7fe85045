import SwStack.Rtp.Assembly

/-! The two video formats. The depacketizers read back what the packetizer writes for the units they
can carry; one of them passes over packets of less than three bytes. -/
open List

namespace SwStack.Rtp

open SwStack.Lib

inductive VideoCodec where
  | h264
  | h265
  deriving DecidableEq

namespace VideoCodec

def format : VideoCodec → NalFormat
  | h264 => h264Format
  | h265 => h265Format

def codec : VideoCodec → Codec
  | h264 => h264Codec
  | h265 => h265Codec

/-- The types that are sent in a packet of their own or in fragments. -/
def Carries : VideoCodec → Bytes → Prop
  | h264, nal => 1 ≤ h264Format.nalType nal ∧ h264Format.nalType nal ≤ 23
  | h265, nal => nal ≠ [] ∧ h265Format.nalType nal ≤ 47

instance (video : VideoCodec) (nal : Bytes) : Decidable (video.Carries nal) :=
  match video with
  | h264 => inferInstanceAs (Decidable (_ ∧ _))
  | h265 => inferInstanceAs (Decidable (_ ∧ _))

/-- A unit that no depacketizer passes over. -/
def Readable (video : VideoCodec) (nal : Bytes) : Prop :=
  video.Carries nal ∧ video.codec.minimumSize ≤ nal.length

instance (video : VideoCodec) (nal : Bytes) : Decidable (video.Readable nal) :=
  inferInstanceAs (Decidable (_ ∧ _))

end VideoCodec

def h264FragmentBytes (first : UInt8) (start ends : Bool) : Prop :=
  let indicator := (first &&& 0xE0) ||| 28
  let header := (first &&& 0x1F) ||| (if start then 0x80 else 0) ||| (if ends then 0x40 else 0)
  indicator &&& 0x1F = 28 ∧ header &&& 0x1F = first &&& 0x1F ∧
    (indicator &&& 0xE0) ||| (header &&& 0x1F) = first ∧ decide (header &&& 0x80 ≠ 0) = start

instance (first : UInt8) (start ends : Bool) : Decidable (h264FragmentBytes first start ends) :=
  inferInstanceAs (Decidable (_ ∧ _))

theorem h264FragmentBytes_holds : ∀ first start ends, h264FragmentBytes first start ends :=
  forall_byte (by decide +kernel)

def h265FragmentBytes (first : UInt8) (start ends : Bool) : Prop :=
  let indicator := (first &&& 0x81) ||| 98
  let nalType := (first >>> 1) &&& 0x3F
  let header := nalType ||| (if start then 0x80 else 0) ||| (if ends then 0x40 else 0)
  let shifted : UInt8 := (header &&& 0x3F) <<< 1
  (indicator >>> 1) &&& 0x3F = 49 ∧ header &&& 0x3F = nalType ∧
    (indicator &&& 0x81) ||| shifted = first ∧ decide (header &&& 0x80 ≠ 0) = start

instance (first : UInt8) (start ends : Bool) : Decidable (h265FragmentBytes first start ends) :=
  inferInstanceAs (Decidable (_ ∧ _))

theorem h265FragmentBytes_holds : ∀ first start ends, h265FragmentBytes first start ends :=
  forall_byte (by decide +kernel)

theorem h264Contents_fragment (indicated : indicator &&& 0x1F = 28)
    (chunk : Bytes) : h264Contents (indicator :: header :: chunk) =
      .fragment (header &&& 0x80 ≠ 0) (header &&& 0x1F)
        [(indicator &&& 0xE0) ||| (header &&& 0x1F)] chunk := by
  have nalType : h264Format.nalType (indicator :: header :: chunk) = 28 := indicated
  rw [h264Contents, nalType]
  rfl

theorem h265Contents_fragment {indicator second header : UInt8}
    (indicated : (indicator >>> 1) &&& 0x3F = 49) {chunk : Bytes} (filled : chunk ≠ []) :
    h265Contents (indicator :: second :: header :: chunk) =
      .fragment (header &&& 0x80 ≠ 0) (header &&& 0x3F)
        [(indicator &&& 0x81) ||| (header &&& 0x3F) <<< (1 : UInt8), second] chunk := by
  have nalType : h265Format.nalType (indicator :: second :: header :: chunk) = 49 := indicated
  have size : ¬(indicator :: second :: header :: chunk).length < 4 := by
    have := length_pos_iff.mpr filled
    simp only [length_cons]
    omega
  rw [h265Contents, nalType]
  exact if_neg size

theorem h264_understands : Understands h264Format h264Codec (VideoCodec.Readable .h264) where
  header valid := valid.2
  minimum valid := valid.2
  single valid := if_pos valid.1
  fragment {nal fragment lastNal} valid filled := by
    cases nal with
    | nil => cases valid.2
    | cons first nal =>
      obtain ⟨indicated, kept, whole, started⟩ :=
        h264FragmentBytes_holds first fragment.start fragment.ends
      refine (h264Contents_fragment indicated fragment.chunk).trans ?_
      exact congr (congr (congrArg₂ Contents.fragment started kept)
        (congrArg (fun byte => [byte]) whole)) rfl
  fragmentSize {nal fragment lastNal} _ _ := by
    change 1 ≤ (fragment.chunk.length + 1) + 1
    omega

theorem h265_understands : Understands h265Format h265Codec (VideoCodec.Readable .h265) where
  header valid := (Nat.le_succ 2).trans valid.2
  minimum valid := valid.2
  single valid := if_pos valid.1.2
  fragment {nal fragment lastNal} valid filled := by
    cases nal with
    | nil => cases valid.2
    | cons first nal =>
      cases nal with
      | nil => exact absurd valid.2 (by simp [VideoCodec.codec, h265Codec])
      | cons second nal =>
        obtain ⟨indicated, kept, whole, started⟩ :=
          h265FragmentBytes_holds first fragment.start fragment.ends
        refine (h265Contents_fragment indicated filled).trans ?_
        exact congr (congr (congrArg₂ Contents.fragment started kept)
          (congrArg (fun byte => [byte, second]) whole)) rfl
  fragmentSize {nal fragment lastNal} _ filled := by
    have := length_pos_iff.mpr filled
    change 3 ≤ ((fragment.chunk.length + 1) + 1) + 1
    omega

theorem VideoCodec.understands (video : VideoCodec) :
    Understands video.format video.codec video.Readable := by
  cases video with
  | h264 => exact h264_understands
  | h265 => exact h265_understands

theorem VideoCodec.headerBytes_le (video : VideoCodec) : video.format.headerBytes ≤ 2 := by
  cases video <;> decide

end SwStack.Rtp

/-! Units on their way from a packetizer to a depacketizer. Every packet is sent as a datagram and
may be lost; before the first packet behind a hole the depacketizer is told of the gap. -/
namespace SwStack.Rtp

open SwStack.Lib

/-- One call of the packetizer. -/
structure Submission where
  stream : PublishStream
  unit : EncodedUnit
  mtuBytes : Nat

structure SentUnit where
  nals : List Bytes
  timestamp : UInt32
  packets : List RtpPacket

def sendAll (format : NalFormat) : List Submission → Packetizer → List SentUnit
  | [], _ => []
  | call :: calls, packetizer =>
    let (sent, packetizer) := packetizer.packetize format call.stream call.unit call.mtuBytes
    { nals := splitNals call.unit.payload, timestamp := sent.1, packets := sent.2 } ::
      sendAll format calls packetizer

/-- The packets of a unit; the first is flagged. -/
def SentUnit.flagged (unit : SentUnit) : List (RtpPacket × Bool) :=
  unit.packets.zipIdx.map fun packet => (packet.1, packet.2 == 0)

/-- Whether the packet before was lost, and the depacketizer. -/
abbrev Receiver := Bool × Depacketizer

section

variable (video : VideoCodec) (sets : List Bytes)

def receive (datagram : Bytes) (state : Depacketizer) : Depacketizer × List VideoPacket :=
  match parseRtpPacket video.format.payloadType.toNat datagram with
  | none => (state, [])
  | some packet => state.push video.codec sets packet

/-- A packet is lost, or it arrives; then it comes with what a gap before it would ask for. -/
def deliverOne (fate : Option Bool) (packet : RtpPacket) (receiver : Receiver) :
    Receiver × List VideoPacket :=
  match fate with
  | none => ((true, receiver.2), [])
  | some force =>
    let state := if receiver.1 then receiver.2.onSequenceGap force else receiver.2
    let (state, emitted) := receive video sets packet.datagram state
    ((false, state), emitted)

/-- The packets from position `next` on. -/
def deliver (fate : Nat → Option Bool) : Nat → List RtpPacket → Receiver →
    Receiver × List VideoPacket
  | _, [], receiver => (receiver, [])
  | next, packet :: packets, receiver =>
    let (receiver, emitted) := deliverOne video sets (fate next) packet receiver
    let (receiver, more) := deliver fate (next + 1) packets receiver
    (receiver, emitted ++ more)

end

def SecondByte (marker : Bool) (byte : UInt8) : Prop :=
  let second := (if marker then 0x80 else 0) ||| (byte &&& 0x7F)
  second &&& 0x7F = byte &&& 0x7F ∧ decide (second &&& 0x80 ≠ 0) = marker

instance (marker : Bool) (byte : UInt8) : Decidable (SecondByte marker byte) :=
  inferInstanceAs (Decidable (_ ∧ _))

theorem secondByte_holds : ∀ byte marker, SecondByte marker byte :=
  forall_byte (by decide +kernel)

theorem datagram_fields (packet : RtpPacket) :
    packet.datagram.length = packet.payload.length + 12 ∧
      (packet.datagram.drop 2).take 2 = bigEndian packet.sequenceNumber.toNat 2 ∧
      (packet.datagram.drop 4).take 4 = bigEndian packet.timestamp.toNat 4 ∧
      (packet.datagram.drop 8).take 4 = bigEndian packet.ssrc.toNat 4 ∧
      packet.datagram.drop 12 = packet.payload := by
  have sequence := length_bigEndian packet.sequenceNumber.toNat 2
  have timestamp := length_bigEndian packet.timestamp.toNat 4
  have ssrc := length_bigEndian packet.ssrc.toNat 4
  rw [RtpPacket.datagram]
  generalize bigEndian packet.sequenceNumber.toNat 2 = first at *
  generalize bigEndian packet.timestamp.toNat 4 = second at *
  generalize bigEndian packet.ssrc.toNat 4 = third at *
  refine ⟨?_, ?_, ?_, ?_, ?_⟩
  · simp only [length_append, length_cons, length_nil, sequence, timestamp, ssrc]
    omega
  · simp [sequence]
  · simp [sequence, timestamp]
  · simp [drop_append, take_append, sequence, timestamp, ssrc]
  · have gone : first.drop 10 = [] := drop_eq_nil_of_le (by omega)
    have goneToo : second.drop 8 = [] := drop_eq_nil_of_le (by omega)
    simp [drop_append, sequence, timestamp, ssrc, gone, goneToo]

theorem parseRtpPacket_datagram (filled : packet.payload ≠ [])
    (typed : packet.payloadType &&& 0x7F = packet.payloadType) :
    parseRtpPacket packet.payloadType.toNat packet.datagram = some packet := by
  obtain ⟨kept, marked⟩ := secondByte_holds packet.payloadType packet.marker
  rw [typed] at kept marked
  obtain ⟨length, sequence, timestamp, ssrc, payload⟩ := datagram_fields packet
  have first : packet.datagram.headD 0 = 0x80 := rfl
  have second : packet.datagram.tail.headD 0 =
      (if packet.marker then 0x80 else 0) ||| packet.payloadType :=
    congrArg ((if packet.marker then 0x80 else 0) ||| ·) typed
  have positive := length_pos_iff.mpr filled
  have small := packet.payloadType.toNat_lt
  rw [parseRtpPacket, if_neg (by omega), first, second]
  dsimp only
  rw [kept, if_neg (by decide), if_neg (by omega)]
  have offset : ((0x80 : UInt8) &&& 0x0F).toNat = 0 := rfl
  have extension : ((0x80 : UInt8) &&& 0x10 ≠ 0) ↔ False := by decide
  have padding : ((0x80 : UInt8) &&& 0x20 ≠ 0) ↔ False := by decide
  simp only [offset, extension, padding, false_and, if_false, Nat.zero_mul, Nat.add_zero, length]
  rw [if_neg (by omega), if_neg (by omega), if_neg (by omega), payload, sequence, timestamp, ssrc,
    marked, bigEndianValue_bigEndian packet.sequenceNumber.toNat_lt,
    bigEndianValue_bigEndian packet.timestamp.toNat_lt,
    bigEndianValue_bigEndian packet.ssrc.toNat_lt, UInt16.ofNat_toNat, UInt32.ofNat_toNat,
    UInt32.ofNat_toNat, take_of_length_le (by omega)]

end SwStack.Rtp
