import SwStack.Lib.Chunks
import SwStack.Lib.SortedMap
import SwStack.Ts.Muxer

/-! A transport stream read back into media packets. Its tables say which packets carry which stream,
and a stream's packet is emitted when its next one starts. -/
namespace SwStack.Ts

open SwStack.Lib

inductive StreamKind where
  | unknown
  | video
  | audio
  | metadata
  | subtitle
  deriving DecidableEq

structure StreamInfo where
  pid : Nat
  kind : StreamKind := .unknown
  trackId : String := ""
  codec : String := ""
  streamType : Nat := 0
  clockRate : Nat := 0
  sampleRate : Nat := 0
  channelCount : Nat := 0
  language : Bytes := []
  hevc : Bool := false
  keyFrame : Bool := false
  hasPesPts : Bool := false
  pesPts : Nat := 0
  buffer : Bytes := []
  deriving DecidableEq

structure MediaPacket where
  kind : StreamKind
  trackId : String
  codec : String
  payload : Bytes
  pts : Nat
  dts : Nat
  keyFrame : Bool := false
  clockRate : Nat
  sampleRate : Nat := 0
  channelCount : Nat := 0
  deriving DecidableEq

/-- What has been learnt from the stream, the bytes of an unfinished packet apart. -/
structure Program where
  patParsed : Bool := false
  pmtPids : List Nat := []
  streams : SortedMap Nat StreamInfo := ∅
  deriving DecidableEq

/-- The value of the low bits of one byte and of the byte after it. -/
def twoBytes (mask : UInt8) (data : Bytes) (index : Nat) : Nat :=
  (data.getD index 0 &&& mask).toNat * 256 + (data.getD (index + 1) 0).toNat

/-- Where the section in a payload ends, if it is one of this table and has so many bytes of its
header in the payload. -/
def sectionEnd (tableId : UInt8) (header : Nat) (data : Bytes) : Option Nat :=
  let index := (data.getD 0 0).toNat + 1
  if data.length < index + header ∨ data.getD index 0 ≠ tableId then none
  else
    let last := index + 3 + twoBytes 0x0F data (index + 1)
    if data.length < last then none else some last

/-- The program map PID that a PAT names. -/
def patProgramMapPid (data : Bytes) : Option Nat := do
  let last ← sectionEnd 0x00 8 data
  let pos := (data.getD 0 0).toNat + 9
  if last < pos + 4 then none else some (twoBytes 0x1F data (pos + 2))

def parsePat (data : Bytes) (payloadStart : Bool) (program : Program) : Program :=
  if !payloadStart || data.length < 8 || program.patParsed then program
  else
    match patProgramMapPid data with
    | none => program
    | some programMapPid =>
      { program with
        pmtPids := if programMapPid ∈ program.pmtPids then program.pmtPids
          else program.pmtPids ++ [programMapPid]
        patParsed := true }

def numbered (label : String) (pid : Nat) : String := label ++ toString pid

/-- The first descriptor of private data that is known. -/
def parsePrivateDataDescriptors : Nat → Bytes → StreamInfo → Option StreamInfo
  | 0, _, _ => none
  | fuel + 1, data, stream =>
    match data with
    | tag :: length :: rest =>
      if rest.length < length.toNat then none
      else if tag = 0x05 ∧ 4 ≤ length ∧ rest.take 4 = [0x4B, 0x4C, 0x56, 0x41] then
        some { stream with
          kind := .metadata
          codec := "smpte336m"
          trackId := numbered "ts-metadata-" stream.pid
          clockRate := 90000 }
      else if tag = 0x05 ∧ 4 ≤ length ∧ rest.take 4 = [0x4F, 0x70, 0x75, 0x73] then
        some { stream with
          kind := .audio
          codec := "opus"
          trackId := numbered "ts-audio-" stream.pid
          sampleRate := 48000
          channelCount := 2
          clockRate := 48000 }
      else if tag = 0x59 ∧ 8 ≤ length then
        some { stream with
          kind := .subtitle
          codec := "dvb-subtitle"
          trackId := numbered "ts-subtitle-" stream.pid
          clockRate := 90000
          language := rest.take 3 }
      else if tag = 0x56 ∧ 5 ≤ length then
        some { stream with
          kind := .subtitle
          codec := "teletext"
          trackId := numbered "ts-subtitle-" stream.pid
          clockRate := 90000
          language := rest.take 3 }
      else parsePrivateDataDescriptors fuel (rest.drop length.toNat) stream
    | _ => none

def recognizeVideo (codec : String) (hevc : Bool) (stream : StreamInfo) : StreamInfo :=
  { stream with
    kind := .video
    codec
    trackId := numbered "ts-video-" stream.pid
    clockRate := 90000
    hevc }

def recognizeStream (streamType : UInt8) (descriptors : Bytes) (pid : Nat) : Option StreamInfo :=
  let stream : StreamInfo := { pid, streamType := streamType.toNat }
  if streamType = 0x1B then some (recognizeVideo "h264" false stream)
  else if streamType = 0x24 then some (recognizeVideo "h265" true stream)
  else if streamType = 0x0F ∨ streamType = 0x11 then
    some { stream with
      kind := .audio
      codec := "aac"
      trackId := numbered "ts-audio-" pid
      sampleRate := 48000
      channelCount := 2
      clockRate := 48000 }
  else if streamType = 0x06 then
    parsePrivateDataDescriptors descriptors.length descriptors stream
  else none

/-- The streams of a PMT that are recognized, from a position on. A descriptor's bytes past the end
of the packet are not modelled. -/
def pmtStreamsFrom (data : Bytes) (last : Nat) : Nat → Nat → List StreamInfo
  | 0, _ => []
  | fuel + 1, pos =>
    if last < pos + 5 then []
    else
      let esInfoLength := twoBytes 0x0F data (pos + 3)
      let recognized := recognizeStream (data.getD pos 0)
        ((data.drop (pos + 5)).take esInfoLength) (twoBytes 0x1F data (pos + 1))
      recognized.toList ++ pmtStreamsFrom data last fuel (pos + 5 + esInfoLength)

def pmtStreams (data : Bytes) : List StreamInfo :=
  match sectionEnd 0x02 12 data with
  | none => []
  | some last =>
    let index := (data.getD 0 0).toNat + 1
    pmtStreamsFrom data last last (index + 12 + twoBytes 0x0F data (index + 10))

/-- What is collected of a stream survives a new description of it. -/
def StreamInfo.describedBy (stream current : StreamInfo) : StreamInfo :=
  { stream with
    pid := current.pid
    keyFrame := current.keyFrame
    hasPesPts := current.hasPesPts
    pesPts := current.pesPts
    buffer := current.buffer }

def upsertStream (program : Program) (stream : StreamInfo) : Program :=
  { program with
    streams := program.streams.insert stream.pid
      (match program.streams.find? stream.pid with
      | none => stream
      | some current => stream.describedBy current) }

def parsePmt (data : Bytes) (payloadStart : Bool) (program : Program) : Program :=
  if !payloadStart || data.length < 12 then program
  else (pmtStreams data).foldl upsertStream program

/-- Is the header of the unit behind a start code, at the front of these bytes, one of these? -/
def startCodeAt (size : Nat) (accepts : UInt8 → Bool) (data : Bytes) : Bool :=
  decide (size ≤ data.length ∧ data.getD 0 0 = 0 ∧ data.getD 1 0 = 0 ∧
      ((data.getD 2 0 = 0 ∧ data.getD 3 0 = 1) ∨ data.getD 2 0 = 1)) &&
    accepts (if data.getD 2 0 = 1 then data.getD 3 0 else data.getD 4 0)

def hasStartCodeH264Idr (data : Bytes) : Bool :=
  data.tails.any (startCodeAt 5 fun header => header &&& 0x1F == 5)

def hasStartCodeHevcIdr (data : Bytes) : Bool :=
  data.tails.any (startCodeAt 6 fun header =>
    let nalType : UInt8 := (header >>> 1) &&& 0x3F
    decide (16 ≤ nalType ∧ nalType ≤ 21))

/-- Some timestamp, if the PES header has one. -/
def parsePts (data : Bytes) : Option Nat :=
  if data.length < 14 then none
  else if data.getD 7 0 &&& 0x80 = 0 ∨ data.getD 8 0 < 5 ∨
      data.length < 9 + (data.getD 8 0).toNat then none
  else
    some ((((data.getD 9 0).toNat >>> 1 &&& 0x07) <<< 30) ||| ((data.getD 10 0).toNat <<< 22) |||
      (((data.getD 11 0).toNat >>> 1 &&& 0x7F) <<< 15) ||| ((data.getD 12 0).toNat <<< 7) |||
      ((data.getD 13 0).toNat >>> 1 &&& 0x7F))

def rescaleTimestamp (value sourceClock targetClock : Nat) : Nat :=
  if sourceClock = 0 ∨ targetClock = 0 then value
  else value * targetClock % 2 ^ 64 / sourceClock

def kAacSampleRates : List Nat :=
  [96000, 88200, 64000, 48000, 44100, 32000, 24000, 22050,
    16000, 12000, 11025, 8000, 7350, 0, 0, 0]

def updateAudioFormatFromPayload (stream : StreamInfo) : StreamInfo :=
  let data := stream.buffer
  if stream.codec ≠ "aac" ∨ data.length < 7 ∨ data.getD 0 0 ≠ 0xFF ∨
      data.getD 1 0 &&& 0xF0 ≠ 0xF0 then stream
  else
    let sampleRate := kAacSampleRates.getD ((data.getD 2 0).toNat >>> 2 &&& 0x0F) 0
    let channelCount :=
      (((data.getD 2 0).toNat &&& 0x01) <<< 2) ||| ((data.getD 3 0).toNat >>> 6 &&& 0x03)
    let stream :=
      if 0 < sampleRate ∧ stream.sampleRate ≠ sampleRate then
        { stream with sampleRate, clockRate := sampleRate }
      else stream
    if 0 < channelCount then { stream with channelCount } else stream

/-- A byte array of the size of a buffer, as a number on 32 signed bits. One of a negative size
cannot be made. -/
def payloadOf (buffer : Bytes) : Option Bytes :=
  let size := buffer.length % 2 ^ 32
  if size < 2 ^ 31 then some (buffer.take size) else none

/-- Without a callback nothing is emitted. -/
def emitPesPacket (stream : StreamInfo) (fallbackTimestamp : Nat) : Option (List MediaPacket) :=
  if stream.buffer.isEmpty then some []
  else do
    let payload ← payloadOf stream.buffer
    let rawPts := if stream.hasPesPts then stream.pesPts else fallbackTimestamp
    let packet : MediaPacket :=
      { kind := stream.kind
        trackId := stream.trackId
        codec := stream.codec
        payload
        pts := rawPts
        dts := rawPts
        clockRate := 90000 }
    match stream.kind with
    | .video => some [{ packet with keyFrame := stream.keyFrame }]
    | .audio =>
      let known : Bool := stream.codec = "opus" ∨ stream.codec = "aac"
      let sampleRate :=
        if 0 < stream.sampleRate then stream.sampleRate else if known then 48000 else 0
      let clockRate := if 0 < sampleRate then sampleRate else 90000
      let pts := rescaleTimestamp rawPts 90000 clockRate
      some [{ packet with
        sampleRate
        channelCount :=
          if 0 < stream.channelCount then stream.channelCount else if known then 2 else 0
        clockRate
        pts
        dts := pts }]
    | .metadata | .subtitle => some [packet]
    | .unknown => some []

/-- What a stream's buffer says about the stream. -/
def StreamInfo.inspected (stream : StreamInfo) : StreamInfo :=
  match stream.kind with
  | .video =>
    { stream with
      keyFrame := if stream.hevc then hasStartCodeHevcIdr stream.buffer
        else hasStartCodeH264Idr stream.buffer }
  | .audio => updateAudioFormatFromPayload stream
  | _ => stream

def StreamInfo.cleared (stream : StreamInfo) : StreamInfo :=
  { stream with buffer := [], keyFrame := false, hasPesPts := false }

/-- A stream that collects what a start of a PES packet carries. -/
def StreamInfo.started (data : Bytes) (stream : StreamInfo) : StreamInfo :=
  if data.length < 6 ∨ data.take 3 ≠ [0x00, 0x00, 0x01] then stream
  else
    let headerLength := if 8 < data.length then (data.getD 8 0).toNat else 0
    if data.length < 9 + headerLength then stream
    else
      let stream :=
        match parsePts data with
        | none => stream
        | some pts => { stream with pesPts := pts, hasPesPts := true }
      { stream with buffer := stream.buffer ++ data.drop (9 + headerLength) }.inspected

def handlePes (data : Bytes) (payloadStart : Bool) (fallbackTimestamp : Nat)
    (stream : StreamInfo) : Option (List MediaPacket × StreamInfo) :=
  if data.isEmpty then some ([], stream)
  else if payloadStart then
    if stream.buffer.isEmpty then some ([], stream.started data)
    else do
      let emitted ← emitPesPacket stream fallbackTimestamp
      some (emitted, stream.cleared.started data)
  else some ([], { stream with buffer := stream.buffer ++ data }.inspected)

def dispatch (timestampBase pid : Nat) (payload : Bytes) (payloadStart : Bool)
    (program : Program) : Option (List MediaPacket × Program) :=
  if pid = 0 then some ([], parsePat payload payloadStart program)
  else if pid ∈ program.pmtPids then some ([], parsePmt payload payloadStart program)
  else
    match program.streams.find? pid with
    | none => some ([], program)
    | some stream => do
      let (emitted, stream) ← handlePes payload payloadStart timestampBase stream
      some (emitted, { program with streams := program.streams.insert pid stream })

def packetPid (packet : Bytes) : Nat := twoBytes 0x1F packet 1

/-- Where a packet's payload starts. -/
def payloadOffset (packet : Bytes) : Nat :=
  if packet.getD 3 0 &&& 0x20 ≠ 0 then 5 + (packet.getD 4 0).toNat else 4

def handlePacket (timestampBase : Nat) (packet : Bytes) (program : Program) :
    Option (List MediaPacket × Program) :=
  if packet.getD 0 0 ≠ 0x47 then some ([], program)
  else if packet.getD 3 0 &&& 0x10 = 0 ∨ packet.length ≤ payloadOffset packet then
    some ([], program)
  else
    dispatch timestampBase (packetPid packet) (packet.drop (payloadOffset packet))
      (decide (packet.getD 1 0 &&& 0x40 ≠ 0)) program

structure Demux where
  program : Program := {}
  tsBuffer : Bytes := []

def Demux.feed (data : Bytes) (timestampBase : Nat) (demux : Demux) :
    Option (List MediaPacket × Demux) := do
  let buffer := demux.tsBuffer ++ data
  let (emitted, tsBuffer, program) ←
    drainChunks packetBytes (handlePacket timestampBase) buffer.length buffer demux.program
  some (emitted, { program, tsBuffer })

/-- Calls of `feed`, each with its timestamp base. -/
def Demux.feedAll : List (Nat × Bytes) → Demux → Option (List MediaPacket × Demux)
  | [], demux => some ([], demux)
  | (timestampBase, data) :: pieces, demux => do
    let (emitted, demux) ← demux.feed data timestampBase
    let (more, demux) ← feedAll pieces demux
    some (emitted ++ more, demux)

end SwStack.Ts
