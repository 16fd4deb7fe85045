import SwStack.Lib.Reader

/-! Access units cut into RTP packets. A unit is split into its NAL units; one that fits a packet
is sent as it is, and any other as fragments behind an indicator and a fragment header. The marker
stands on the last packet of a unit. -/
namespace SwStack.Rtp

open SwStack.Lib List

/-- The size of the start code at the head of the data, 0 for none. -/
def startCodeSizeAt : Bytes → Nat
  | 0 :: 0 :: 1 :: _ => 3
  | 0 :: 0 :: 0 :: 1 :: _ => 4
  | _ => 0

def findStartCode : Bytes → Nat
  | [] => 0
  | byte :: data => if startCodeSizeAt (byte :: data) ≠ 0 then 0 else findStartCode data + 1

def splitAnnexBFrom : Nat → Bytes → List Bytes
  | 0, _ => []
  | fuel + 1, data =>
    let codeSize := startCodeSizeAt data
    if codeSize = 0 then []
    else
      let body := data.drop codeSize
      let next := findStartCode body
      (if 0 < next then [body.take next] else []) ++ splitAnnexBFrom fuel (body.drop next)

def splitAnnexB (data : Bytes) : List Bytes :=
  splitAnnexBFrom data.length (data.drop (findStartCode data))

def lengthPrefixedFrom (lengthBytes : Nat) : Nat → Bytes → Option (List Bytes)
  | 0, data => if data.isEmpty then some [] else none
  | fuel + 1, data =>
    if data.length < lengthBytes then if data.isEmpty then some [] else none
    else
      let nalSize := bigEndianValue (data.take lengthBytes)
      let body := data.drop lengthBytes
      if nalSize = 0 ∨ body.length < nalSize then none
      else (lengthPrefixedFrom lengthBytes fuel (body.drop nalSize)).map (body.take nalSize :: ·)

/-- `swForEachLengthPrefixedNalUnit`, which wants at least one unit. -/
def splitLengthPrefixed (lengthBytes : Nat) (data : Bytes) : Option (List Bytes) :=
  (lengthPrefixedFrom lengthBytes data.length data).filter fun nals => !nals.isEmpty

def splitNals (data : Bytes) : List Bytes :=
  let nals := splitAnnexB data
  if !nals.isEmpty then nals
  else
    match splitLengthPrefixed 4 data with
    | some nals => nals
    | none =>
      match splitLengthPrefixed 2 data with
      | some nals => nals
      | none => if data.isEmpty then [] else [data]

/-- A unit that holds no start code, also not with the first bytes of the one behind it. -/
def Plain (nal : Bytes) : Prop :=
  nal ≠ [] ∧ ∀ position < nal.length, startCodeSizeAt ((nal ++ [0, 0, 0, 1]).drop position) = 0

theorem startCodeSizeAt_cons (first second third fourth : UInt8) (rest : Bytes) :
    startCodeSizeAt (first :: second :: third :: fourth :: rest) =
      startCodeSizeAt [first, second, third, fourth] := by
  unfold startCodeSizeAt
  split
  · rename_i same
    injection same with zero same
    injection same with zeroToo same
    injection same with mark _
    rw [zero, zeroToo, mark]
    rfl
  · rename_i notThree same
    injection same with zero same
    injection same with zeroToo same
    injection same with zeroThree same
    injection same with mark _
    rw [zero, zeroToo, zeroThree, mark]
    rfl
  · rename_i notThree notFour
    split
    · rename_i same
      injection same with zero same
      injection same with zeroToo same
      injection same with mark _
      exact absurd (by rw [zero, zeroToo, mark]) (notThree (fourth :: rest))
    · rename_i same
      injection same with zero same
      injection same with zeroToo same
      injection same with zeroThree same
      injection same with mark _
      exact absurd (by rw [zero, zeroToo, zeroThree, mark]) (notFour rest)
    · rfl

theorem startCodeSizeAt_append (long : 4 ≤ data.length) (rest : Bytes) :
    startCodeSizeAt (data ++ rest) = startCodeSizeAt data := by
  obtain ⟨first, second, third, fourth, tail, rfl⟩ : ∃ first second third fourth tail,
      data = first :: second :: third :: fourth :: tail := by
    rcases data with - | ⟨first, - | ⟨second, - | ⟨third, - | ⟨fourth, tail⟩⟩⟩⟩
    · cases long
    · simp at long
    · simp at long
    · simp at long
    · exact ⟨first, second, third, fourth, tail, rfl⟩
  rw [startCodeSizeAt_cons]
  exact startCodeSizeAt_cons first second third fourth (tail ++ rest)

theorem startCodeSizeAt_of_append
    (none_after : startCodeSizeAt (data ++ rest) = 0) : startCodeSizeAt data = 0 := by
  by_cases long : 4 ≤ data.length
  · rwa [startCodeSizeAt_append long] at none_after
  · unfold startCodeSizeAt
    split
    · cases none_after
    · rename_i tail
      simp at long
    · rfl

theorem findStartCode_of_plain
    (plain : ∀ position < data.length, startCodeSizeAt (data.drop position) = 0) :
    findStartCode data = data.length := by
  induction data with
  | nil => rfl
  | cons byte data ih =>
    have here : startCodeSizeAt (byte :: data) = 0 := plain 0 (Nat.succ_pos _)
    rw [findStartCode, if_neg (not_not.mpr here),
      ih fun position below => plain (position + 1) (Nat.succ_lt_succ below)]
    rfl

theorem findStartCode_append (plain : Plain nal) (rest : Bytes) :
    findStartCode (nal ++ ([0, 0, 0, 1] ++ rest)) = nal.length := by
  obtain ⟨-, plain⟩ := plain
  induction nal with
  | nil => rfl
  | cons byte nal ih =>
    have here := plain 0 (Nat.succ_pos _)
    have long : 4 ≤ ((byte :: nal) ++ [0, 0, 0, 1]).length := by simp
    have same := startCodeSizeAt_append long rest
    rw [append_assoc] at same
    have none_here : startCodeSizeAt (byte :: (nal ++ ([0, 0, 0, 1] ++ rest))) = 0 :=
      same.trans here
    rw [cons_append, findStartCode, if_neg (not_not.mpr none_here),
      ih fun position below => plain (position + 1) (Nat.succ_lt_succ below)]
    rfl

theorem splitAnnexBFrom_startCodes (plain : ∀ nal ∈ nals, Plain nal) (enough : nals.length ≤ fuel) :
    splitAnnexBFrom fuel (nals.flatMap fun nal => [0, 0, 0, 1] ++ nal) = nals := by
  induction nals generalizing fuel with
  | nil => cases fuel <;> rfl
  | cons nal nals ih =>
    cases fuel with
    | zero => cases enough
    | succ fuel =>
      have here := plain nal mem_cons_self
      have next : findStartCode (nal ++ nals.flatMap fun nal => [0, 0, 0, 1] ++ nal) =
          nal.length := by
        cases nals with
        | nil =>
          rw [flatMap_nil, append_nil]
          refine findStartCode_of_plain fun position below => ?_
          have none_here := here.2 position below
          rw [drop_append_of_le_length below.le] at none_here
          exact startCodeSizeAt_of_append none_here
        | cons other nals =>
          rw [flatMap_cons, append_assoc]
          exact findStartCode_append here _
      have rest := ih (fun other member => plain other (mem_cons_of_mem _ member))
        (Nat.le_of_succ_le_succ enough)
      rw [flatMap_cons, splitAnnexBFrom]
      have size : startCodeSizeAt ([0, 0, 0, 1] ++ nal ++
          nals.flatMap fun nal => [0, 0, 0, 1] ++ nal) = 4 := rfl
      have body : ([0, 0, 0, 1] ++ nal ++ nals.flatMap fun nal => [0, 0, 0, 1] ++ nal).drop 4 =
          nal ++ nals.flatMap fun nal => [0, 0, 0, 1] ++ nal := rfl
      dsimp only
      rw [size, if_neg (by decide), body, next, if_pos (length_pos_iff.mpr here.1),
        take_left, drop_left, rest]
      rfl

theorem splitNals_startCodes (filled : nals ≠ []) (plain : ∀ nal ∈ nals, Plain nal) :
    splitNals (nals.flatMap fun nal => [0, 0, 0, 1] ++ nal) = nals := by
  have split : splitAnnexB (nals.flatMap fun nal => [0, 0, 0, 1] ++ nal) = nals := by
    cases nals with
    | nil => rfl
    | cons nal nals =>
      have first : findStartCode ((nal :: nals).flatMap fun nal => [0, 0, 0, 1] ++ nal) = 0 := rfl
      rw [splitAnnexB, first, drop_zero]
      refine splitAnnexBFrom_startCodes plain ?_
      rw [length_flatMap]
      refine le_trans (le_of_eq (length_map _).symm)
        (length_le_sum_of_one_le _ fun length member => ?_)
      obtain ⟨other, -, rfl⟩ := mem_map.mp member
      exact Nat.succ_pos _
  have some_nal : ¬nals.isEmpty = true := mt List.isEmpty_iff.mp filled
  rw [splitNals, split]
  exact if_pos (by rw [Bool.eq_false_iff.mpr some_nal]; rfl)

structure Fragment where
  start : Bool
  ends : Bool
  chunk : Bytes

def fragmentsFrom (capacity : Nat) (start : Bool) : Nat → Bytes → List Fragment
  | 0, _ => []
  | fuel + 1, rest =>
    if rest.isEmpty then []
    else
      { start, ends := rest.length ≤ capacity, chunk := rest.take capacity } ::
        fragmentsFrom capacity false fuel (rest.drop capacity)

def fuHeader (nalType : UInt8) (fragment : Fragment) : UInt8 :=
  nalType ||| (if fragment.start then 0x80 else 0) ||| (if fragment.ends then 0x40 else 0)

/-- Where the two formats differ: the header of a NAL unit, its type, and what stands before the
header of a fragment. -/
structure NalFormat where
  payloadType : UInt8
  headerBytes : Nat
  nalType : Bytes → UInt8
  fuIndicator : Bytes → Bytes

def h264Format : NalFormat where
  payloadType := 96
  headerBytes := 1
  nalType nal := nal.headD 0 &&& 0x1F
  fuIndicator nal := [(nal.headD 0 &&& 0xE0) ||| 28]

def h265Format : NalFormat where
  payloadType := 98
  headerBytes := 2
  nalType nal := (nal.headD 0 >>> 1) &&& 0x3F
  fuIndicator nal := [(nal.headD 0 &&& 0x81) ||| 98, nal.tail.headD 0]

/-- A payload and its marker. -/
abbrev Piece := Bytes × Bool

def NalFormat.fragmentPiece (format : NalFormat) (lastNal : Bool) (nal : Bytes)
    (fragment : Fragment) : Piece :=
  (format.fuIndicator nal ++ fuHeader (format.nalType nal) fragment :: fragment.chunk,
    lastNal && fragment.ends)

def NalFormat.packetizeNal (format : NalFormat) (maxPayload : Nat) (lastNal : Bool)
    (nal : Bytes) : List Piece :=
  if nal.length < format.headerBytes then []
  else if nal.length ≤ maxPayload then [(nal, lastNal)]
  else if maxPayload ≤ format.headerBytes + 1 ∨ nal.length ≤ format.headerBytes then []
  else
    (fragmentsFrom (maxPayload - (format.headerBytes + 1)) true nal.length
      (nal.drop format.headerBytes)).map (format.fragmentPiece lastNal nal)

def NalFormat.packetizeNals (format : NalFormat) (maxPayload : Nat) : List Bytes → List Piece
  | [] => []
  | nal :: nals =>
    format.packetizeNal maxPayload nals.isEmpty nal ++ format.packetizeNals maxPayload nals

def packetizeH264 (maxPayload : Nat) (data : Bytes) : List Piece :=
  h264Format.packetizeNals maxPayload (splitNals data)

def packetizeH265 (maxPayload : Nat) (data : Bytes) : List Piece :=
  h265Format.packetizeNals maxPayload (splitNals data)

/-- `SwRtpSession::Packet`, without its sender. -/
structure RtpPacket where
  payload : Bytes
  payloadType : UInt8
  sequenceNumber : UInt16
  timestamp : UInt32
  ssrc : UInt32
  marker : Bool
  deriving DecidableEq

def rtpHeaderBytes : Nat := 12

/-- The datagram of a packet. -/
def RtpPacket.datagram (packet : RtpPacket) : Bytes :=
  [0x80, (if packet.marker then 0x80 else 0) ||| (packet.payloadType &&& 0x7F)] ++
    (bigEndian packet.sequenceNumber.toNat 2 ++ (bigEndian packet.timestamp.toNat 4 ++
      (bigEndian packet.ssrc.toNat 4 ++ packet.payload)))

/-- A negative expected type admits every payload type. -/
def parseRtpPacket (expectedType : Int) (datagram : Bytes) : Option RtpPacket :=
  if datagram.length < 12 then none
  else
    let first := datagram.headD 0
    let second := datagram.tail.headD 0
    if first >>> 6 ≠ 2 then none
    else
      let payloadType := second &&& 0x7F
      if 0 ≤ expectedType ∧ (payloadType.toNat : Int) ≠ expectedType % 256 then none
      else
        let offset := 12 + (first &&& 0x0F).toNat * 4
        if datagram.length < offset then none
        else
          let extension := first &&& 0x10 ≠ 0
          if extension ∧ datagram.length < offset + 4 then none
          else
            let extLength := bigEndianValue ((datagram.drop (offset + 2)).take 2)
            let offset := if extension then offset + (4 + extLength * 4) else offset
            if datagram.length ≤ offset then none
            else
              let payloadSize := datagram.length - offset
              let padCount := (datagram.getLast?.getD 0).toNat
              let payloadSize := if first &&& 0x20 ≠ 0 ∧ padCount < payloadSize
                then payloadSize - padCount else payloadSize
              if payloadSize = 0 then none
              else
                some
                  { payload := (datagram.drop offset).take payloadSize
                    payloadType
                    sequenceNumber := .ofNat (bigEndianValue ((datagram.drop 2).take 2))
                    timestamp := .ofNat (bigEndianValue ((datagram.drop 4).take 4))
                    ssrc := .ofNat (bigEndianValue ((datagram.drop 8).take 4))
                    marker := second &&& 0x80 ≠ 0 }

structure PublishStream where
  fpsNumerator : Nat
  fpsDenominator : Nat

/-- An encoded access unit, as it is handed over. -/
structure EncodedUnit where
  payload : Bytes
  pts : Int

structure Packetizer where
  ssrc : UInt32
  sequenceNumber : UInt16
  nextTimestamp : UInt32

def Packetizer.initial : Packetizer :=
  { ssrc := 0x53575254, sequenceNumber := 1, nextTimestamp := 0 }

namespace Packetizer

def rtpTimestamp (stream : PublishStream) (unit : EncodedUnit) (packetizer : Packetizer) :
    UInt32 × Packetizer :=
  if 0 ≤ unit.pts then (.ofNat (unit.pts.toNat * 90 % 2 ^ 64 / 1000), packetizer)
  else
    let fpsNum := if stream.fpsNumerator = 0 then 30 else stream.fpsNumerator
    let fpsDen := if stream.fpsDenominator = 0 then 1 else stream.fpsDenominator
    let step : UInt32 := .ofNat (90000 * fpsDen / fpsNum)
    let next := packetizer.nextTimestamp + (if step = 0 then 3000 else step)
    (next, { packetizer with nextTimestamp := next })

def appendRtpPackets (payloadType : UInt8) (timestamp : UInt32) :
    List Piece → Packetizer → List RtpPacket × Packetizer
  | [], packetizer => ([], packetizer)
  | piece :: pieces, packetizer =>
    let packet : RtpPacket :=
      { payload := piece.1, payloadType, sequenceNumber := packetizer.sequenceNumber
        timestamp, ssrc := packetizer.ssrc, marker := piece.2 }
    let (packets, packetizer) := appendRtpPackets payloadType timestamp pieces
      { packetizer with sequenceNumber := packetizer.sequenceNumber + 1 }
    (packet :: packets, packetizer)

/-- The timestamp of a unit and its packets. -/
def packetize (format : NalFormat) (stream : PublishStream) (unit : EncodedUnit) (mtuBytes : Nat)
    (packetizer : Packetizer) : (UInt32 × List RtpPacket) × Packetizer :=
  if unit.payload.isEmpty then ((0, []), packetizer)
  else
    let mtu := if mtuBytes < 64 then 64 else mtuBytes
    let (timestamp, packetizer) := packetizer.rtpTimestamp stream unit
    let (packets, packetizer) := appendRtpPackets format.payloadType timestamp
      (format.packetizeNals (mtu - rtpHeaderBytes) (splitNals unit.payload)) packetizer
    ((timestamp, packets), packetizer)

end Packetizer
end SwStack.Rtp
