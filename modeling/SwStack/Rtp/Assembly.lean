import SwStack.Rtp.Packetizer

/-! The depacketizers. Both collect an access unit from the packets of one timestamp, and drop what
remains of a unit once a gap is reported inside it. -/
open List

namespace SwStack.Rtp

open SwStack.Lib

/-- What a payload carries. -/
inductive Contents where
  | units (nals : List (UInt8 × Bytes))
  | fragment (start : Bool) (nalType : UInt8) (header chunk : Bytes)
  | ignored

/-- The units of an aggregation packet, up to the first that is cut off. -/
def aggregatedFrom (nalType : Bytes → UInt8) : Nat → Bytes → List (UInt8 × Bytes)
  | 0, _ => []
  | fuel + 1, rest =>
    if rest.length < 2 then []
    else
      let nalSize := bigEndianValue (rest.take 2)
      let body := rest.drop 2
      if body.length < nalSize then []
      else (nalType body, body.take nalSize) :: aggregatedFrom nalType fuel (body.drop nalSize)

def aggregated (nalType : Bytes → UInt8) (offset : Nat) (payload : Bytes) : List (UInt8 × Bytes) :=
  aggregatedFrom nalType payload.length (payload.drop offset)

def h264Contents (payload : Bytes) : Contents :=
  let nalType := h264Format.nalType payload
  if 1 ≤ nalType ∧ nalType ≤ 23 then .units [(nalType, payload)]
  else if nalType = 24 ∨ nalType = 25 then
    .units (aggregated h264Format.nalType (if nalType = 25 then 3 else 1) payload)
  else if nalType = 28 ∨ nalType = 29 then
    let fragmentHeaderSize := if nalType = 29 then 4 else 2
    if payload.length < fragmentHeaderSize then .ignored
    else
      let fuHeader := payload.tail.headD 0
      let fuNalType := fuHeader &&& 0x1F
      .fragment (fuHeader &&& 0x80 ≠ 0) fuNalType [(payload.headD 0 &&& 0xE0) ||| fuNalType]
        (payload.drop fragmentHeaderSize)
  else .ignored

def h265Contents (payload : Bytes) : Contents :=
  let nalType := h265Format.nalType payload
  if nalType ≤ 47 then .units [(nalType, payload)]
  else if nalType = 48 then .units (aggregated h265Format.nalType 2 payload)
  else if nalType = 49 then
    if payload.length < 4 then .ignored
    else
      let fuHeader := (payload.drop 2).headD 0
      let fuNalType := fuHeader &&& 0x3F
      let shifted : UInt8 := fuNalType <<< 1
      .fragment (fuHeader &&& 0x80 ≠ 0) fuNalType
        [(payload.headD 0 &&& 0x81) ||| shifted, payload.tail.headD 0] (payload.drop 3)
  else .ignored

/-- Where the two depacketizers differ. `accepts` and `syncs` say what a unit must have, of a key
frame, a recovery frame and headers, to be emitted while one is waited for, and to end the wait. -/
structure Codec where
  minimumSize : Nat
  contents : Bytes → Contents
  isKeyNal : UInt8 → Bool
  isRecoveryIdrNal : UInt8 → Bool
  isParameterSet : UInt8 → Bool
  injects : List Bytes → Bool
  accepts : Bool → Bool → Bool → Bool
  syncs : Bool → Bool → Bool → Bool
  recoveryIsDiscontinuity : Bool

def h264Codec : Codec where
  minimumSize := 1
  contents := h264Contents
  isKeyNal nalType := nalType == 5
  isRecoveryIdrNal nalType := nalType == 5
  isParameterSet nalType := nalType == 7 || nalType == 8
  injects _ := true
  accepts key _ headers := key || headers
  syncs key _ _ := key
  recoveryIsDiscontinuity := false

/-- The parameter sets are injected only when there is one of each kind. -/
def h265Codec : Codec where
  minimumSize := 3
  contents := h265Contents
  isKeyNal nalType := 16 ≤ nalType && nalType ≤ 21
  isRecoveryIdrNal nalType := nalType == 19 || nalType == 20
  isParameterSet nalType := nalType == 32 || nalType == 33 || nalType == 34
  injects sets := sets.all fun set => !set.isEmpty
  accepts _ recovery headers := recovery && headers
  syncs _ recovery headers := recovery && headers
  recoveryIsDiscontinuity := true

structure Depacketizer where
  accessUnit : Bytes
  haveTimestamp : Bool
  currentTimestamp : UInt32
  currentKeyFrame : Bool
  currentRecoveryIdr : Bool
  waitingForKeyFrame : Bool
  currentAccessUnitHasHeaders : Bool
  currentAccessUnitInjectedHeaders : Bool
  headersInserted : Bool
  dropCurrentAccessUnit : Bool
  emitDiscontinuityOnNextFrame : Bool
  deriving DecidableEq

structure VideoPacket where
  payload : Bytes
  timestamp : UInt32
  keyFrame : Bool
  discontinuity : Bool
  deriving DecidableEq

def startCode : Bytes := [0, 0, 0, 1]

/-- The parameter sets that there are, each behind a start code. -/
def parameterSets (sets : List Bytes) : Bytes :=
  (sets.filter fun set => !set.isEmpty).flatMap fun set => startCode ++ set

namespace Depacketizer

def initial : Depacketizer :=
  { accessUnit := [], haveTimestamp := false, currentTimestamp := 0, currentKeyFrame := false
    currentRecoveryIdr := false, waitingForKeyFrame := true, currentAccessUnitHasHeaders := false
    currentAccessUnitInjectedHeaders := false, headersInserted := false
    dropCurrentAccessUnit := false, emitDiscontinuityOnNextFrame := true }

def clearFrameState (state : Depacketizer) : Depacketizer :=
  { state with
    accessUnit := [], currentKeyFrame := false, currentRecoveryIdr := false
    currentAccessUnitHasHeaders := false, currentAccessUnitInjectedHeaders := false }

def onSequenceGap (forceWaitForKeyFrame : Bool) (state : Depacketizer) : Depacketizer :=
  let state := { state.clearFrameState with
    dropCurrentAccessUnit := true, emitDiscontinuityOnNextFrame := true }
  if forceWaitForKeyFrame || state.waitingForKeyFrame then
    { state with waitingForKeyFrame := true, headersInserted := false }
  else state

section

variable (codec : Codec) (sets : List Bytes)

def flushFrame (timestamp : UInt32) (state : Depacketizer) : Depacketizer × List VideoPacket :=
  if state.accessUnit.isEmpty then (state, [])
  else
    let carriesHeaders :=
      state.currentAccessUnitHasHeaders || state.currentAccessUnitInjectedHeaders
    if state.waitingForKeyFrame &&
        !codec.accepts state.currentKeyFrame state.currentRecoveryIdr carriesHeaders then
      (state.clearFrameState, [])
    else
      let synced := state.waitingForKeyFrame &&
        codec.syncs state.currentKeyFrame state.currentRecoveryIdr carriesHeaders
      let discontinuity :=
        synced && codec.recoveryIsDiscontinuity || state.emitDiscontinuityOnNextFrame
      ({ state.clearFrameState with
          waitingForKeyFrame := state.waitingForKeyFrame && !synced
          emitDiscontinuityOnNextFrame := state.emitDiscontinuityOnNextFrame && !discontinuity
          headersInserted := state.headersInserted || carriesHeaders },
        [{ payload := state.accessUnit, timestamp, keyFrame := state.currentKeyFrame
           discontinuity }])

def maybeAppendParameterSetsForKeyNal (nalType : UInt8) (state : Depacketizer) : Depacketizer :=
  if codec.isKeyNal nalType && !state.headersInserted && !state.currentAccessUnitHasHeaders &&
      codec.injects sets then
    { state with
      accessUnit := state.accessUnit ++ parameterSets sets
      currentAccessUnitInjectedHeaders := true }
  else state

def noteNalType (nalType : UInt8) (state : Depacketizer) : Depacketizer :=
  { state with
    currentKeyFrame := state.currentKeyFrame || codec.isKeyNal nalType
    currentRecoveryIdr := state.currentRecoveryIdr || codec.isRecoveryIdrNal nalType
    currentAccessUnitHasHeaders :=
      state.currentAccessUnitHasHeaders || codec.isParameterSet nalType }

/-- No key unit is a parameter set, so it does not matter that one depacketizer notes the parameter
set before the other does. -/
def appendNal (nalType : UInt8) (bytes : Bytes) (state : Depacketizer) : Depacketizer :=
  let state := state.maybeAppendParameterSetsForKeyNal codec sets nalType
  noteNalType codec nalType { state with accessUnit := state.accessUnit ++ (startCode ++ bytes) }

/-- What a payload adds; none when the packet is ignored with its marker. -/
def absorb (payload : Bytes) (state : Depacketizer) : Option Depacketizer :=
  match codec.contents payload with
  | .units nals => some (nals.foldl (fun state nal => appendNal codec sets nal.1 nal.2 state) state)
  | .fragment true nalType header chunk => some (appendNal codec sets nalType (header ++ chunk) state)
  | .fragment false _ _ chunk => some { state with accessUnit := state.accessUnit ++ chunk }
  | .ignored => none

/-- A packet of another timestamp ends the unit before it. -/
def adoptTimestamp (timestamp : UInt32) (state : Depacketizer) : Depacketizer × List VideoPacket :=
  let state := if state.haveTimestamp then state
    else { state with currentTimestamp := timestamp, haveTimestamp := true }
  if timestamp ≠ state.currentTimestamp then
    let (state, flushed) := flushFrame codec state.currentTimestamp state
    ({ state with currentTimestamp := timestamp, dropCurrentAccessUnit := false }, flushed)
  else (state, [])

def push (packet : RtpPacket) (state : Depacketizer) : Depacketizer × List VideoPacket :=
  if packet.payload.length < codec.minimumSize then (state, [])
  else
    let (state, flushed) := adoptTimestamp codec packet.timestamp state
    if state.dropCurrentAccessUnit then
      (if packet.marker then { state with dropCurrentAccessUnit := false } else state, flushed)
    else
      match absorb codec sets packet.payload state with
      | none => (state, flushed)
      | some state =>
        if packet.marker then
          let (state, emitted) := flushFrame codec packet.timestamp state
          (state, flushed ++ emitted)
        else (state, flushed)

end

end Depacketizer

def SwRtpDepacketizerH264.push : List Bytes → RtpPacket → Depacketizer →
    Depacketizer × List VideoPacket := Depacketizer.push h264Codec

def SwRtpDepacketizerH265.push : List Bytes → RtpPacket → Depacketizer →
    Depacketizer × List VideoPacket := Depacketizer.push h265Codec

end SwStack.Rtp

/-! An access unit put together again from its packets. While the packets of a unit arrive one after
another, the depacketizer holds what the packets so far carried, and the rest of the unit is in the
packets that are still to come. -/
namespace SwStack.Rtp

open SwStack.Lib

/-- What a unit looks like when it is emitted: each of its parts behind a start code, a key one
perhaps behind injected parameter sets too. -/
inductive Shown (isKey : Bytes → Bool) (sets : Bytes) : List Bytes → Bytes → Prop where
  | nil : Shown isKey sets [] []
  | plain : Shown isKey sets nals bytes →
      Shown isKey sets (nals ++ [nal]) (bytes ++ (startCode ++ nal))
  | injected : Shown isKey sets nals bytes → isKey nal = true →
      Shown isKey sets (nals ++ [nal]) (bytes ++ sets ++ (startCode ++ nal))

/-- The last part has only been read up to here. -/
def Begun (isKey : Bytes → Bool) (sets : Bytes) (done : List Bytes) (nal read bytes : Bytes) :
    Prop :=
  ∃ before, Shown isKey sets done before ∧ (bytes = before ++ (startCode ++ read) ∨
    isKey nal = true ∧ bytes = before ++ sets ++ (startCode ++ read))

theorem Begun.append {isKey : Bytes → Bool} {sets : Bytes} {done : List Bytes}
    {nal read bytes : Bytes} (begun : Begun isKey sets done nal read bytes) (chunk : Bytes) :
    Begun isKey sets done nal (read ++ chunk) (bytes ++ chunk) := by
  obtain ⟨before, shown, same | ⟨key, same⟩⟩ := begun
  · exact ⟨before, shown, .inl (by rw [same, append_assoc, append_assoc])⟩
  · exact ⟨before, shown, .inr ⟨key, by
      rw [same, append_assoc, append_assoc, append_assoc, append_assoc]⟩⟩

theorem Begun.shown
    (begun : Begun isKey sets done nal nal bytes) : Shown isKey sets (done ++ [nal]) bytes := by
  obtain ⟨before, shown, rfl | ⟨key, rfl⟩⟩ := begun
  · exact .plain shown
  · exact .injected shown key

/-- The depacketizer reads what the packetizer writes, for the units it is meant to carry. -/
structure Understands (format : NalFormat) (codec : Codec) (carried : Bytes → Prop) : Prop where
  header : ∀ {nal}, carried nal → format.headerBytes ≤ nal.length
  minimum : ∀ {nal}, carried nal → codec.minimumSize ≤ nal.length
  single : ∀ {nal}, carried nal → codec.contents nal = .units [(format.nalType nal, nal)]
  fragment : ∀ {nal fragment lastNal}, carried nal → fragment.chunk ≠ [] →
    codec.contents (format.fragmentPiece lastNal nal fragment).1 =
      .fragment fragment.start (format.nalType nal) (nal.take format.headerBytes) fragment.chunk
  fragmentSize : ∀ {nal fragment lastNal}, carried nal → fragment.chunk ≠ [] →
    codec.minimumSize ≤ (format.fragmentPiece lastNal nal fragment).1.length

namespace Depacketizer

/-- What payloads leave alone. -/
structure Kept (before after : Depacketizer) : Prop where
  haveTimestamp : after.haveTimestamp = before.haveTimestamp
  currentTimestamp : after.currentTimestamp = before.currentTimestamp
  dropCurrentAccessUnit : after.dropCurrentAccessUnit = before.dropCurrentAccessUnit

theorem kept_appendNal (codec : Codec) (sets : List Bytes) (nalType : UInt8) (bytes : Bytes)
    (state : Depacketizer) : Kept state (state.appendNal codec sets nalType bytes) := by
  rw [appendNal, maybeAppendParameterSetsForKeyNal, noteNalType]
  split
  · exact ⟨rfl, rfl, rfl⟩
  · exact ⟨rfl, rfl, rfl⟩

theorem begun_appendNal {codec : Codec} {sets : List Bytes} {format : NalFormat}
    {done : List Bytes} {nal : Bytes} {state : Depacketizer}
    (shown : Shown (fun nal => codec.isKeyNal (format.nalType nal)) (parameterSets sets) done
      state.accessUnit) (read : Bytes) :
    Begun (fun nal => codec.isKeyNal (format.nalType nal)) (parameterSets sets) done nal read
      (state.appendNal codec sets (format.nalType nal) read).accessUnit := by
  refine ⟨_, shown, ?_⟩
  rw [appendNal, maybeAppendParameterSetsForKeyNal, noteNalType]
  split
  · rename_i injects
    simp only [Bool.and_eq_true] at injects
    exact .inr ⟨injects.1.1.1, rfl⟩
  · exact .inl rfl

end Depacketizer

section

variable {format : NalFormat} {codec : Codec} {carried : Bytes → Prop} {sets : List Bytes}
variable {maxPayload : Nat}

theorem fragmentsFrom_ne_nil (unread : rest ≠ []) (enough : rest.length ≤ fuel) :
    fragmentsFrom capacity start fuel rest =
      { start, ends := rest.length ≤ capacity, chunk := rest.take capacity } ::
        fragmentsFrom capacity false (fuel - 1) (rest.drop capacity) := by
  cases fuel with
  | zero => exact absurd (eq_nil_of_length_eq_zero (Nat.le_zero.mp enough)) unread
  | succ fuel => rw [fragmentsFrom, if_neg (mt List.isEmpty_iff.mp unread), Nat.add_sub_cancel]

theorem fragmentsFrom_nil (capacity : Nat) (start : Bool) (fuel : Nat) :
    fragmentsFrom capacity start fuel [] = [] := by
  cases fuel <;> rfl

/-- What has been read of the units, and what the packets still to come carry of them. -/
inductive Pending (format : NalFormat) (codec : Codec) (sets : List Bytes) (maxPayload : Nat)
    (nals : List Bytes) : Bytes → List Piece → Prop where
  | between (done rest : List Bytes) : done ++ rest = nals →
      Shown (fun nal => codec.isKeyNal (format.nalType nal)) (parameterSets sets) done bytes →
      Pending format codec sets maxPayload nals bytes (format.packetizeNals maxPayload rest)
  | inside (done rest : List Bytes) (nal read unread : Bytes) (fuel : Nat) :
      done ++ nal :: rest = nals →
      Begun (fun nal => codec.isKeyNal (format.nalType nal)) (parameterSets sets) done nal read
        bytes →
      read ++ unread = nal → unread ≠ [] → unread.length ≤ fuel →
      Pending format codec sets maxPayload nals bytes
        ((fragmentsFrom (maxPayload - (format.headerBytes + 1)) false fuel unread).map
          (format.fragmentPiece rest.isEmpty nal) ++ format.packetizeNals maxPayload rest)

theorem packetizeNal_ne_nil (understands : Understands format codec carried)
    (room : format.headerBytes + 1 < maxPayload) (valid : carried nal)
    (lastNal : Bool) : format.packetizeNal maxPayload lastNal nal ≠ [] := by
  have header := understands.header valid
  rw [NalFormat.packetizeNal, if_neg (by omega)]
  split
  · exact cons_ne_nil _ _
  · rw [if_neg (by omega), fragmentsFrom_ne_nil]
    · exact cons_ne_nil _ _
    · intro empty
      have lengths := congrArg List.length empty
      rw [length_drop, length_nil] at lengths
      omega
    · rw [length_drop]
      omega

theorem packetizeNals_eq_nil_iff (understands : Understands format codec carried)
    (room : format.headerBytes + 1 < maxPayload)
    (valid : ∀ nal ∈ nals, carried nal) :
    format.packetizeNals maxPayload nals = [] ↔ nals = [] := by
  cases nals with
  | nil => exact iff_of_true rfl rfl
  | cons nal nals =>
    refine iff_of_false (fun empty => ?_) (cons_ne_nil _ _)
    exact packetizeNal_ne_nil understands room (valid nal mem_cons_self) _
      (append_eq_nil_iff.mp empty).1

/-- The unit is whole behind the packet with the marker, and is not before. -/
def Continues (format : NalFormat) (codec : Codec) (sets : List Bytes) (maxPayload : Nat)
    (nals : List Bytes) (bytes : Bytes) (marker : Bool) (remaining : List Piece) : Prop :=
  remaining = [] ∧ marker = true ∧
      Shown (fun nal => codec.isKeyNal (format.nalType nal)) (parameterSets sets) nals bytes ∨
    remaining ≠ [] ∧ marker = false ∧ Pending format codec sets maxPayload nals bytes remaining

theorem continues_between (understands : Understands format codec carried)
    (room : format.headerBytes + 1 < maxPayload)
    (valid : ∀ nal ∈ nals, carried nal) (split : done ++ nal :: rest = nals)
    (begun : Begun (fun nal => codec.isKeyNal (format.nalType nal)) (parameterSets sets) done nal
      nal bytes) :
    Continues format codec sets maxPayload nals bytes rest.isEmpty
      (format.packetizeNals maxPayload rest) := by
  have whole : (done ++ [nal]) ++ rest = nals := by rw [append_assoc]; exact split
  have restValid : ∀ other ∈ rest, carried other := fun other member =>
    valid other (whole ▸ mem_append_right _ member)
  cases rest with
  | nil =>
    rw [append_nil] at whole
    exact .inl ⟨rfl, rfl, whole ▸ begun.shown⟩
  | cons next rest =>
    exact .inr ⟨mt (packetizeNals_eq_nil_iff understands room restValid).mp (cons_ne_nil _ _),
      rfl, .between (done ++ [nal]) (next :: rest) whole begun.shown⟩

theorem continues_inside (understands : Understands format codec carried)
    (room : format.headerBytes + 1 < maxPayload) {nals done rest : List Bytes}
    {nal read unread bytes : Bytes} {fuel : Nat}
    (valid : ∀ nal ∈ nals, carried nal) (split : done ++ nal :: rest = nals)
    (begun : Begun (fun nal => codec.isKeyNal (format.nalType nal)) (parameterSets sets) done nal
      (read ++ unread.take (maxPayload - (format.headerBytes + 1))) bytes)
    (whole : read ++ unread = nal) (enough : unread.length ≤ fuel) (filled : unread ≠ []) :
    Continues format codec sets maxPayload nals bytes
      (rest.isEmpty && decide (unread.length ≤ maxPayload - (format.headerBytes + 1)))
      ((fragmentsFrom (maxPayload - (format.headerBytes + 1)) false (fuel - 1)
        (unread.drop (maxPayload - (format.headerBytes + 1)))).map
          (format.fragmentPiece rest.isEmpty nal) ++ format.packetizeNals maxPayload rest) := by
  generalize capacity : maxPayload - (format.headerBytes + 1) = size at *
  by_cases last : unread.length ≤ size
  · rw [drop_eq_nil_of_le last, fragmentsFrom_nil, decide_eq_true last, Bool.and_true]
    rw [take_of_length_le last, whole] at begun
    exact continues_between understands room valid split begun
  · have more : unread.drop size ≠ [] := by
      intro empty
      exact last (drop_eq_nil_iff.mp empty)
    have shorter : (unread.drop size).length ≤ fuel - 1 := by
      rw [length_drop]
      have positive : 0 < size := by omega
      have some_unread := length_pos_iff.mpr filled
      omega
    rw [decide_eq_false last, Bool.and_false]
    refine .inr ⟨?_, rfl, ?_⟩
    · rw [fragmentsFrom_ne_nil more shorter]
      exact cons_ne_nil _ _
    · rw [← capacity] at *
      exact .inside done rest nal _ _ _ split begun
        (by rw [append_assoc, take_append_drop, whole]) more shorter

theorem Pending.absorb (understands : Understands format codec carried)
    (room : format.headerBytes + 1 < maxPayload) {nals : List Bytes}
    (valid : ∀ nal ∈ nals, carried nal) {state : Depacketizer} {piece : Piece}
    {remaining : List Piece}
    (pending : Pending format codec sets maxPayload nals state.accessUnit (piece :: remaining)) :
    codec.minimumSize ≤ piece.1.length ∧ ∃ after, state.absorb codec sets piece.1 = some after ∧
      Depacketizer.Kept state after ∧
      Continues format codec sets maxPayload nals after.accessUnit piece.2 remaining := by
  generalize pieces : piece :: remaining = all at pending
  cases pending with
  | between done rest split shown =>
    cases rest with
    | nil => cases pieces
    | cons nal rest =>
      have carriedNal := valid nal (split ▸ mem_append_right _ mem_cons_self)
      have header := understands.header carriedNal
      rw [NalFormat.packetizeNals, NalFormat.packetizeNal, if_neg (by omega)] at pieces
      by_cases fits : nal.length ≤ maxPayload
      · rw [if_pos fits] at pieces
        obtain ⟨rfl, rfl⟩ := List.cons.inj pieces
        refine ⟨understands.minimum carriedNal, _, ?_, Depacketizer.kept_appendNal _ _ _ _ _,
          continues_between understands room valid split
            (Depacketizer.begun_appendNal shown nal)⟩
        rw [Depacketizer.absorb, understands.single carriedNal]
        rfl
      · have size : (nal.drop format.headerBytes).length = nal.length - format.headerBytes :=
          length_drop
        have filled : nal.drop format.headerBytes ≠ [] := ne_nil_of_length_pos (by omega)
        have enough : (nal.drop format.headerBytes).length ≤ nal.length := by omega
        rw [if_neg fits, if_neg (by omega), fragmentsFrom_ne_nil filled enough] at pieces
        obtain ⟨rfl, rfl⟩ := List.cons.inj pieces
        have chunk : (nal.drop format.headerBytes).take (maxPayload - (format.headerBytes + 1)) ≠ [] :=
          ne_nil_of_length_pos (by rw [length_take]; omega)
        refine ⟨understands.fragmentSize carriedNal chunk, _, ?_,
          Depacketizer.kept_appendNal _ _ _ _ _,
          continues_inside understands room valid split (Depacketizer.begun_appendNal shown _)
            (take_append_drop _ _) enough filled⟩
        rw [Depacketizer.absorb, understands.fragment carriedNal chunk]
  | inside done rest nal read unread fuel split begun whole filled enough =>
    have carriedNal := valid nal (split ▸ mem_append_right _ mem_cons_self)
    rw [fragmentsFrom_ne_nil filled enough] at pieces
    obtain ⟨rfl, rfl⟩ := List.cons.inj pieces
    have some_unread := length_pos_iff.mpr filled
    have chunk : unread.take (maxPayload - (format.headerBytes + 1)) ≠ [] :=
      ne_nil_of_length_pos (by rw [length_take]; omega)
    refine ⟨understands.fragmentSize carriedNal chunk,
      { state with accessUnit := state.accessUnit ++ unread.take _ }, ?_, ⟨rfl, rfl, rfl⟩,
      continues_inside understands room valid split (begun.append _) whole enough filled⟩
    rw [Depacketizer.absorb, understands.fragment carriedNal chunk]

end

end SwStack.Rtp
