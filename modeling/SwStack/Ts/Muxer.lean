import SwStack.Lib.Reader

/-! Access units written as an MPEG transport stream: tables before the first unit and before every
key frame, then the unit behind a PES header, cut into packets. What a packet lacks to its size is
stuffed into its adaptation field. -/
namespace SwStack.Ts

open SwStack.Lib

def kPmtPid : Nat := 0x0100

def kVideoPid : Nat := 0x0101

def packetBytes : Nat := 188

inductive VideoCodec where
  | h264
  | h265
  deriving DecidableEq

/-- The counter of a PID is the one that its next packet gets. -/
structure Muxer where
  codec : VideoCodec
  continuity : Nat → UInt8
  tablesEmitted : Bool

def Muxer.new (codec : VideoCodec) : Muxer :=
  { codec, continuity := fun _ => 0, tablesEmitted := false }

def crcBit (crc : UInt32) : UInt32 :=
  if crc &&& 0x80000000 ≠ 0 then (crc <<< 1) ^^^ 0x04C11DB7 else crc <<< 1

def crcByte (crc : UInt32) (byte : UInt8) : UInt32 :=
  let shifted : UInt32 := byte.toUInt32 <<< 24
  crcBit^[8] (crc ^^^ shifted)

def crc32 (data : Bytes) : UInt32 := data.foldl crcByte 0xFFFFFFFF

/-- The length is patched in, up to the end of the checksum that follows. -/
def finishSection (tableId : UInt8) (body : Bytes) : Bytes :=
  let lengthValue := body.length + 4
  let data := tableId :: .ofNat (0xB0 ||| ((lengthValue >>> 8) &&& 0x0F)) ::
    .ofNat (lengthValue &&& 0xFF) :: body
  data ++ bigEndian (crc32 data).toNat 4

def patSection : Bytes :=
  finishSection 0x00 [0x00, 0x01, 0xC1, 0x00, 0x00, 0x00, 0x01,
    .ofNat (0xE0 ||| ((kPmtPid >>> 8) &&& 0x1F)), .ofNat (kPmtPid &&& 0xFF)]

def streamType : VideoCodec → UInt8
  | .h264 => 0x1B
  | .h265 => 0x24

def pmtSection (codec : VideoCodec) : Bytes :=
  finishSection 0x02 [0x00, 0x01, 0xC1, 0x00, 0x00,
    .ofNat (0xE0 ||| ((kVideoPid >>> 8) &&& 0x1F)), .ofNat (kVideoPid &&& 0xFF), 0xF0, 0x00,
    streamType codec, .ofNat (0xE0 ||| ((kVideoPid >>> 8) &&& 0x1F)),
    .ofNat (kVideoPid &&& 0xFF), 0xF0, 0x00]

/-- What a packet of a section carries: a pointer, the section, and padding. -/
def sectionPayload (data : Bytes) : Bytes :=
  0x00 :: data ++ List.replicate (packetBytes - 5 - data.length) 0xFF

/-- The first four bytes. -/
def packetHeader (pid : Nat) (payloadStart adaptation : Bool) (continuity : UInt8) : Bytes :=
  [0x47, .ofNat ((if payloadStart then 0x40 else 0x00) ||| ((pid >>> 8) &&& 0x1F)),
    .ofNat (pid &&& 0xFF), (if adaptation then 0x30 else 0x10) ||| continuity]

def pcrBytes (pts90k : Nat) : Bytes :=
  let pcrBase := if 9000 < pts90k then pts90k - 9000 else 0
  [.ofNat ((pcrBase >>> 25) &&& 0xFF), .ofNat ((pcrBase >>> 17) &&& 0xFF),
    .ofNat ((pcrBase >>> 9) &&& 0xFF), .ofNat ((pcrBase >>> 1) &&& 0xFF),
    .ofNat (((pcrBase &&& 0x1) <<< 7) ||| 0x7E), 0x00]

/-- The adaptation field, of a size that counts its length byte. -/
def adaptationField (size : Nat) (payloadStart withPcr : Bool) (pts90k : Nat) : Bytes :=
  if size = 0 then []
  else
    .ofNat (size - 1) ::
      (if 2 ≤ size then
        let flags : UInt8 := (if withPcr then 0x10 else 0x00) |||
          (if payloadStart && withPcr then 0x40 else 0x00)
        flags :: ((if withPcr then pcrBytes pts90k else []) ++
          List.replicate (size - (if withPcr then 8 else 2)) 0xFF)
      else [])

/-- The size of the adaptation field when so many bytes remain. -/
def adaptationSize (withPcr : Bool) (remaining : Nat) : Nat :=
  let size := if withPcr then 8 else 0
  let capacity := packetBytes - 4 - size
  if remaining < capacity then
    size + (if size = 0 then (if 2 ≤ capacity - remaining then capacity - remaining else 1)
      else capacity - remaining)
  else size

namespace Muxer

def nextContinuity (pid : Nat) (muxer : Muxer) : UInt8 × Muxer :=
  let value := muxer.continuity pid
  (value, { muxer with continuity := Function.update muxer.continuity pid ((value + 1) &&& 0x0F) })

def appendSection (pid : Nat) (data : Bytes) (muxer : Muxer) : Bytes × Muxer :=
  let (continuity, muxer) := muxer.nextContinuity pid
  (packetHeader pid true false continuity ++ sectionPayload data, muxer)

def appendPat : Muxer → Bytes × Muxer := appendSection 0x0000 patSection

def appendPmt (muxer : Muxer) : Bytes × Muxer :=
  muxer.appendSection kPmtPid (pmtSection muxer.codec)

/-- The tables stand before the first unit, and before a key frame. -/
def appendTables (keyFrame : Bool) (muxer : Muxer) : List Bytes × Muxer :=
  if !muxer.tablesEmitted || keyFrame then
    let (pat, muxer) := muxer.appendPat
    let (pmt, muxer) := muxer.appendPmt
    ([pat, pmt], { muxer with tablesEmitted := true })
  else ([], muxer)

/-- The next packet of what remains of a unit, and what then remains. -/
def appendVideoTsPacket (rest : Bytes) (payloadStart withPcr : Bool) (pts90k : Nat)
    (muxer : Muxer) : Bytes × Bytes × Muxer :=
  let size := adaptationSize withPcr rest.length
  let capacity := packetBytes - 4 - size
  let (continuity, muxer) := muxer.nextContinuity kVideoPid
  (packetHeader kVideoPid payloadStart (decide (0 < size)) continuity ++
      (adaptationField size payloadStart withPcr pts90k ++ rest.take capacity),
    rest.drop capacity, muxer)

def appendVideoTsPackets (keyFrame : Bool) (pts90k : Nat) :
    Nat → Bool → Bytes → Muxer → List Bytes × Muxer
  | 0, _, _, muxer => ([], muxer)
  | fuel + 1, first, rest, muxer =>
    if rest.isEmpty then ([], muxer)
    else
      let (packet, rest, muxer) :=
        muxer.appendVideoTsPacket rest first (first && keyFrame) pts90k
      let (packets, muxer) := appendVideoTsPackets keyFrame pts90k fuel false rest muxer
      (packet :: packets, muxer)

def pesHeader (pts90k : Nat) : Bytes :=
  [0x00, 0x00, 0x01, 0xE0, 0x00, 0x00, 0x80, 0x80, 0x05,
    .ofNat (0x21 ||| (((pts90k >>> 30) &&& 0x07) <<< 1)), .ofNat ((pts90k >>> 22) &&& 0xFF),
    .ofNat (0x01 ||| (((pts90k >>> 15) &&& 0x7F) <<< 1)), .ofNat ((pts90k >>> 7) &&& 0xFF),
    .ofNat (0x01 ||| ((pts90k &&& 0x7F) <<< 1))]

/-- On 64 bits. -/
def pts90k (ptsMs : Int) : Nat := if 0 < ptsMs then ptsMs.toNat * 90 % 2 ^ 64 else 0

/-- The packets that one access unit adds to the stream. -/
def muxAccessUnit (annexB : Bytes) (ptsMs : Int) (keyFrame : Bool) (muxer : Muxer) :
    List Bytes × Muxer :=
  if annexB.isEmpty then ([], muxer)
  else
    let (tables, muxer) := muxer.appendTables keyFrame
    let pes := pesHeader (pts90k ptsMs) ++ annexB
    let (packets, muxer) :=
      muxer.appendVideoTsPackets keyFrame (pts90k ptsMs) pes.length true pes
    (tables ++ packets, muxer)

end Muxer

structure AccessUnit where
  annexB : Bytes
  ptsMs : Int
  keyFrame : Bool

def muxAll : List AccessUnit → Muxer → List Bytes × Muxer
  | [], muxer => ([], muxer)
  | unit :: units, muxer =>
    let (packets, muxer) := muxer.muxAccessUnit unit.annexB unit.ptsMs unit.keyFrame
    let (more, muxer) := muxAll units muxer
    (packets ++ more, muxer)

end SwStack.Ts
