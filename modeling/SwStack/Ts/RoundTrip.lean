import SwStack.Ts.Packets

/-! What a demuxer emits of a muxed stream: each unit when the next one starts. -/
namespace SwStack.Ts

open SwStack.Lib List

theorem first_pts_byte {bits : Nat} (small : bits < 8) :
    (UInt8.ofNat (0x21 ||| (bits <<< 1))).toNat >>> 1 &&& 0x07 = bits := by
  interval_cases bits <;> rfl

theorem odd_pts_byte {bits : Nat} (small : bits < 128) :
    (UInt8.ofNat (0x01 ||| (bits <<< 1))).toNat >>> 1 &&& 0x7F = bits := by
  have all : ∀ value < 128, (UInt8.ofNat (0x01 ||| (value <<< 1))).toNat >>> 1 &&& 0x7F = value := by
    decide +kernel
  exact all bits small

theorem even_pts_byte (value : Nat) : (UInt8.ofNat (value &&& 0xFF)).toNat = value % 256 := by
  rw [UInt8.toNat_ofNat', show (0xFF : Nat) = 2 ^ 8 - 1 from rfl, Nat.and_two_pow_sub_one_eq_mod]
  omega

theorem joined_bits (high : Nat) {low count : Nat} (shift : Nat) (small : low < 2 ^ count) :
    (high <<< (shift + count)) ||| (low <<< shift) = ((high * 2 ^ count + low) <<< shift) := by
  rw [Nat.add_comm shift count, Nat.shiftLeft_add, ← Nat.shiftLeft_or_distrib,
    ← Nat.shiftLeft_add_eq_or_of_lt small, Nat.shiftLeft_eq high]

theorem joined_fields (secondSmall : second < 256)
    (thirdSmall : third < 128) (fourthSmall : fourth < 256) (lastSmall : last < 128) :
    (first <<< 30) ||| (second <<< 22) ||| (third <<< 15) ||| (fourth <<< 7) ||| last =
      (((first * 2 ^ 8 + second) * 2 ^ 7 + third) * 2 ^ 8 + fourth) * 2 ^ 7 + last := by
  have two := @joined_bits first second 8 22 secondSmall
  have three := @joined_bits (first * 2 ^ 8 + second) third 7 15 thirdSmall
  have four := @joined_bits ((first * 2 ^ 8 + second) * 2 ^ 7 + third) fourth 8 7 fourthSmall
  have five :=
    @joined_bits (((first * 2 ^ 8 + second) * 2 ^ 7 + third) * 2 ^ 8 + fourth) last 7 0 lastSmall
  rw [Nat.shiftLeft_zero, Nat.shiftLeft_zero] at five
  rw [two, three, four, five]

theorem parsePts_pesHeader (pts90k : Nat) (rest : Bytes) :
    parsePts (Muxer.pesHeader pts90k ++ rest) = some (pts90k % 2 ^ 33) := by
  have mask3 (value : Nat) : value &&& 0x07 = value % 8 := Nat.and_two_pow_sub_one_eq_mod value 3
  have mask7 (value : Nat) : value &&& 0x7F = value % 128 :=
    Nat.and_two_pow_sub_one_eq_mod value 7
  have long : ¬(Muxer.pesHeader pts90k ++ rest).length < 14 := by
    rw [length_append]
    exact Nat.not_lt.mpr (Nat.le_add_right 14 _)
  have whole : ¬((Muxer.pesHeader pts90k ++ rest).getD 7 0 &&& 0x80 = 0 ∨
      (Muxer.pesHeader pts90k ++ rest).getD 8 0 < 5 ∨
      (Muxer.pesHeader pts90k ++ rest).length <
        9 + ((Muxer.pesHeader pts90k ++ rest).getD 8 0).toNat) := by
    refine not_or.mpr ⟨by change ¬((0x80 : UInt8) &&& 0x80 = 0); decide, not_or.mpr ⟨?_, long⟩⟩
    change ¬(0x05 : UInt8) < 5
    decide
  have high : (UInt8.ofNat (0x21 ||| (((pts90k >>> 30) &&& 0x07) <<< 1))).toNat >>> 1 &&& 0x07 =
      pts90k / 2 ^ 30 % 8 := by
    rw [mask3 (pts90k >>> 30), first_pts_byte (Nat.mod_lt _ (by decide)), Nat.shiftRight_eq_div_pow]
  have third : (UInt8.ofNat (0x01 ||| (((pts90k >>> 15) &&& 0x7F) <<< 1))).toNat >>> 1 &&& 0x7F =
      pts90k / 2 ^ 15 % 128 := by
    rw [mask7 (pts90k >>> 15), odd_pts_byte (Nat.mod_lt _ (by decide)), Nat.shiftRight_eq_div_pow]
  have last : (UInt8.ofNat (0x01 ||| ((pts90k &&& 0x7F) <<< 1))).toNat >>> 1 &&& 0x7F =
      pts90k % 128 := by
    rw [mask7 pts90k, odd_pts_byte (Nat.mod_lt _ (by decide))]
  have second := even_pts_byte (pts90k >>> 22)
  have fourth := even_pts_byte (pts90k >>> 7)
  rw [Nat.shiftRight_eq_div_pow] at second fourth
  rw [parsePts, if_neg long, if_neg whole]
  change some ((((UInt8.ofNat (0x21 ||| (((pts90k >>> 30) &&& 0x07) <<< 1))).toNat >>> 1 &&& 0x07)
      <<< 30) ||| ((UInt8.ofNat ((pts90k >>> 22) &&& 0xFF)).toNat <<< 22) |||
    (((UInt8.ofNat (0x01 ||| (((pts90k >>> 15) &&& 0x7F) <<< 1))).toNat >>> 1 &&& 0x7F) <<< 15) |||
    ((UInt8.ofNat ((pts90k >>> 7) &&& 0xFF)).toNat <<< 7) |||
    ((UInt8.ofNat (0x01 ||| ((pts90k &&& 0x7F) <<< 1))).toNat >>> 1 &&& 0x7F)) = _
  rw [high, third, last, Nat.shiftRight_eq_div_pow, Nat.shiftRight_eq_div_pow, second, fourth,
    joined_fields (Nat.mod_lt _ (by decide)) (Nat.mod_lt _ (by decide)) (Nat.mod_lt _ (by decide))
      (Nat.mod_lt _ (by decide))]
  congr 1
  omega

/-- A stream as the tables describe it. -/
def described : VideoCodec → StreamInfo
  | .h264 => recognizeVideo "h264" false { pid := kVideoPid, streamType := 0x1B }
  | .h265 => recognizeVideo "h265" true { pid := kVideoPid, streamType := 0x24 }

def hasIdr (codec : VideoCodec) (data : Bytes) : Bool :=
  match codec with
  | .h264 => hasStartCodeH264Idr data
  | .h265 => hasStartCodeHevcIdr data

/-- A stream of which this much of a unit is collected. -/
def collecting (codec : VideoCodec) (pts : Nat) (buffer : Bytes) : StreamInfo :=
  { described codec with
    keyFrame := hasIdr codec buffer
    hasPesPts := true
    pesPts := pts
    buffer }

def AccessUnit.pts (unit : AccessUnit) : Nat := Muxer.pts90k unit.ptsMs % 2 ^ 33

/-- A stream after a unit, if there has been one. -/
def pending (codec : VideoCodec) : Option AccessUnit → StreamInfo
  | none => described codec
  | some unit => collecting codec unit.pts unit.annexB

/-- A program whose tables are known. -/
def tuned (stream : StreamInfo) : Program :=
  { patParsed := true
    pmtPids := [kPmtPid]
    streams := SortedMap.empty.insert kVideoPid stream }

/-- A unit as it is emitted. -/
def emitted (codec : VideoCodec) (unit : AccessUnit) : Option (List MediaPacket) :=
  (payloadOf unit.annexB).map fun payload =>
    [{ kind := .video
       trackId := (described codec).trackId
       codec := (described codec).codec
       payload
       pts := unit.pts
       dts := unit.pts
       keyFrame := hasIdr codec unit.annexB
       clockRate := 90000 }]

theorem described_kind (codec : VideoCodec) : (described codec).kind = .video := by
  cases codec <;> rfl

theorem emitPesPacket_pending (codec : VideoCodec) (filled : unit.annexB ≠ [])
    (fallbackTimestamp : Nat) :
    emitPesPacket (pending codec (.some unit)) fallbackTimestamp = emitted codec unit := by
  have nonempty : ¬(pending codec (.some unit)).buffer.isEmpty = true := by
    simpa [pending, collecting] using filled
  have video : (pending codec (.some unit)).kind = .video := described_kind codec
  rw [emitPesPacket, if_neg nonempty, video, emitted]
  change (payloadOf unit.annexB).bind _ = _
  cases payloadOf unit.annexB with
  | none => rfl
  | some payload => cases codec <;> rfl

theorem inspected_collecting (codec : VideoCodec) (stream : StreamInfo) (pts : Nat)
    (buffer : Bytes)
    (same : { stream with keyFrame := false } =
      { collecting codec pts buffer with keyFrame := false }) :
    stream.inspected = collecting codec pts buffer := by
  have fields : stream = { collecting codec pts buffer with keyFrame := stream.keyFrame } := by
    calc stream = { { stream with keyFrame := false } with keyFrame := stream.keyFrame } := rfl
      _ = _ := by rw [same]
  rw [fields]
  cases codec <;> rfl

/-- A stream that waits for a unit, whatever the timestamp of the one before. -/
def waiting (codec : VideoCodec) (pesPts : Nat) : StreamInfo := { described codec with pesPts }

theorem started_pesHeader (codec : VideoCodec) (pesPts : Nat) (unit : AccessUnit)
    (chunk : Bytes) :
    (waiting codec pesPts).started (Muxer.pesHeader (Muxer.pts90k unit.ptsMs) ++ chunk) =
      collecting codec unit.pts chunk := by
  have length := @List.length_append _ (Muxer.pesHeader (Muxer.pts90k unit.ptsMs)) chunk
  have headerLength : (Muxer.pesHeader (Muxer.pts90k unit.ptsMs)).length = 14 := rfl
  have header : ¬((Muxer.pesHeader (Muxer.pts90k unit.ptsMs) ++ chunk).length < 6 ∨
      (Muxer.pesHeader (Muxer.pts90k unit.ptsMs) ++ chunk).take 3 ≠ [0x00, 0x00, 0x01]) := by
    refine not_or.mpr ⟨?_, not_not.mpr rfl⟩
    omega
  have fifth : (if 8 < (Muxer.pesHeader (Muxer.pts90k unit.ptsMs) ++ chunk).length then
      ((Muxer.pesHeader (Muxer.pts90k unit.ptsMs) ++ chunk).getD 8 0).toNat else 0) = 5 := by
    rw [if_pos (by omega)]
    rfl
  have rest : (Muxer.pesHeader (Muxer.pts90k unit.ptsMs) ++ chunk).drop (9 + 5) = chunk := rfl
  rw [StreamInfo.started, if_neg header, fifth, if_neg (by omega), parsePts_pesHeader, rest]
  apply inspected_collecting
  cases codec <;> rfl

/-- What a stream that has collected a unit, or none yet, emits when a unit starts. -/
def emittedOf (codec : VideoCodec) : Option AccessUnit → Option (List MediaPacket)
  | none => some []
  | some unit => emitted codec unit

theorem handlePes_start (codec : VideoCodec)
    (nonempty : ∀ unit ∈ previous, unit.annexB ≠ []) (unit : AccessUnit) (chunk : Bytes)
    (fallbackTimestamp : Nat) :
    handlePes (Muxer.pesHeader (Muxer.pts90k unit.ptsMs) ++ chunk) true fallbackTimestamp
        (pending codec previous) =
      (emittedOf codec previous).map fun out => (out, collecting codec unit.pts chunk) := by
  rw [handlePes, if_neg (by simp [Muxer.pesHeader]), if_pos rfl]
  cases previous with
  | none =>
    have empty : (pending codec none).buffer.isEmpty = true := by cases codec <;> rfl
    have same : pending codec none = waiting codec 0 := by cases codec <;> rfl
    rw [if_pos empty, same, started_pesHeader]
    rfl
  | some unit' =>
    have filled := nonempty unit' rfl
    have same : (pending codec (.some unit')).cleared = waiting codec unit'.pts := by
      cases codec <;> rfl
    rw [if_neg (by simpa [pending, collecting] using filled), emitPesPacket_pending codec filled, same,
      started_pesHeader]
    change (emitted codec unit').bind _ = _
    exact (Option.map_eq_bind).symm

theorem handlePes_continued (codec : VideoCodec) (pts : Nat) (buffer : Bytes)
    (nonempty : chunk ≠ []) (fallbackTimestamp : Nat) :
    handlePes chunk false fallbackTimestamp (collecting codec pts buffer) =
      .some ([], collecting codec pts (buffer ++ chunk)) := by
  rw [handlePes, if_neg (by simpa using nonempty), if_neg Bool.false_ne_true]
  congr 2
  apply inspected_collecting
  rfl

theorem parsePat_first :
    parsePat (sectionPayload patSection) true {} =
      { patParsed := true, pmtPids := [kPmtPid] } := by
  decide +kernel

theorem pmtStreams_pmtSection (codec : VideoCodec) :
    pmtStreams (sectionPayload (pmtSection codec)) = [described codec] := by
  cases codec <;> decide +kernel

/-- What the packets of a stream do to a program. -/
def handleCarried (timestampBase : Nat) (carried : Carried) (program : Program) :
    Option (List MediaPacket × Program) :=
  dispatch timestampBase carried.pid carried.payload carried.payloadStart program

theorem handleCarried_video (timestampBase : Nat) (payloadStart : Bool) (payload : Bytes)
    (stream : StreamInfo) :
    handleCarried timestampBase { pid := kVideoPid, payloadStart, payload } (tuned stream) =
      (handlePes payload payloadStart timestampBase stream).map
        fun handled => (handled.1, tuned handled.2) := by
  change dispatch timestampBase kVideoPid payload payloadStart (tuned stream) = _
  have notTable : ¬kVideoPid ∈ (tuned stream).pmtPids := by
    change ¬kVideoPid ∈ [kPmtPid]
    decide
  have known : (tuned stream).streams.find? kVideoPid = some stream := by
    rw [tuned, SortedMap.find?_insert_self]
  rw [dispatch, if_neg (by decide), if_neg notTable, known]
  change Option.bind _ _ = _
  cases handlePes payload payloadStart timestampBase stream with
  | none => rfl
  | some handled => rfl

theorem tables_first (codec : VideoCodec) :
    Yields handleCarried (tablesCarried codec) {} (some ([], tuned (pending codec none))) := by
  have pat (stamp : Nat) : handleCarried stamp (sectionCarried 0x0000 patSection) {} =
      some ([], { patParsed := true, pmtPids := [kPmtPid] }) :=
    congrArg (fun program => some (([] : List MediaPacket), program)) parsePat_first
  have pmt (stamp : Nat) : handleCarried stamp (sectionCarried kPmtPid (pmtSection codec))
      { patParsed := true, pmtPids := [kPmtPid] } = some ([], tuned (pending codec none)) := by
    change dispatch stamp kPmtPid (sectionPayload (pmtSection codec)) true _ = _
    rw [dispatch, if_neg (by decide), if_pos (by decide : kPmtPid ∈ [kPmtPid]), parsePmt,
      if_neg (by simp [length_sectionPayload, length_pmtSection]), pmtStreams_pmtSection]
    cases codec <;> rfl
  exact .cons pat (.cons pmt (.nil _))

theorem tables_again (codec : VideoCodec) (previous : Option AccessUnit) :
    Yields handleCarried (tablesCarried codec) (tuned (pending codec previous))
      (some ([], tuned (pending codec previous))) := by
  have pat (stamp : Nat) : handleCarried stamp (sectionCarried 0x0000 patSection)
      (tuned (pending codec previous)) = some ([], tuned (pending codec previous)) := by
    change dispatch stamp 0 (sectionPayload patSection) true _ = _
    rw [dispatch, if_pos rfl, parsePat, if_pos (by simp [tuned])]
  have pmt (stamp : Nat) : handleCarried stamp (sectionCarried kPmtPid (pmtSection codec))
      (tuned (pending codec previous)) = some ([], tuned (pending codec previous)) := by
    change dispatch stamp kPmtPid (sectionPayload (pmtSection codec)) true _ = _
    rw [dispatch, if_neg (by decide), if_pos (by simp [tuned]), parsePmt,
      if_neg (by simp [length_sectionPayload, length_pmtSection]), pmtStreams_pmtSection]
    cases previous <;> cases codec <;> rfl
  exact .cons pat (.cons pmt (.nil _))

theorem video_continued (codec : VideoCodec) (pts : Nat) (buffer : Bytes) (chunks : List Bytes)
    (nonempty : ∀ chunk ∈ chunks, chunk ≠ []) :
    Yields handleCarried (videoCarried false chunks) (tuned (collecting codec pts buffer))
      (some ([], tuned (collecting codec pts (buffer ++ chunks.flatten)))) := by
  induction chunks generalizing buffer with
  | nil => simpa [videoCarried] using Yields.nil (tuned (collecting codec pts buffer))
  | cons chunk chunks ih =>
    have later := ih (buffer ++ chunk) fun other member => nonempty other (by simp [member])
    have single (stamp : Nat) := handleCarried_video stamp false chunk (collecting codec pts buffer)
    simp only [handlePes_continued codec pts buffer (nonempty chunk (by simp)),
      Option.map_some] at single
    rw [flatten_cons, ← append_assoc]
    exact .cons single later

theorem video_unit (codec : VideoCodec) {previous : Option AccessUnit}
    (nonempty : ∀ unit ∈ previous, unit.annexB ≠ []) {unit : AccessUnit} {chunks : List Bytes}
    (cut : ChunksOf unit.pes chunks) :
    Yields handleCarried (videoCarried true chunks) (tuned (pending codec previous))
      ((emittedOf codec previous).map fun out => (out, tuned (pending codec (some unit)))) := by
  cases chunks with
  | nil => exact absurd cut.covers (by simp [AccessUnit.pes, Muxer.pesHeader])
  | cons chunk chunks =>
    have long := cut.first chunk rfl
    have covers : chunk ++ chunks.flatten =
        Muxer.pesHeader (Muxer.pts90k unit.ptsMs) ++ unit.annexB := cut.covers
    have header : (Muxer.pesHeader (Muxer.pts90k unit.ptsMs)).length ≤ chunk.length := by
      rw [AccessUnit.pes, length_append] at long
      have size : (Muxer.pesHeader (Muxer.pts90k unit.ptsMs)).length = 14 := rfl
      omega
    obtain ⟨start, rfl⟩ : Muxer.pesHeader (Muxer.pts90k unit.ptsMs) <+: chunk :=
      prefix_of_prefix_length_le (prefix_append _ unit.annexB)
        (covers ▸ prefix_append chunk _) header
    have whole : start ++ chunks.flatten = unit.annexB := by
      rw [append_assoc] at covers
      exact append_cancel_left covers
    have single (stamp : Nat) := handleCarried_video stamp true
      (Muxer.pesHeader (Muxer.pts90k unit.ptsMs) ++ start) (pending codec previous)
    simp only [handlePes_start codec nonempty, Option.map_map] at single
    have later := video_continued codec unit.pts start chunks
      fun other member => cut.nonempty other (by simp [member])
    rw [whole] at later
    cases emits : emittedOf codec previous with
    | none =>
      simp only [emits, Option.map_none] at single
      exact .fails single
    | some out =>
      simp only [emits, Option.map_some] at single
      have both := Yields.cons single later
      rw [videoCarried]
      simpa [pending] using both

theorem carried_unit (codec : VideoCodec) {previous : Option AccessUnit}
    (nonempty : ∀ unit ∈ previous, unit.annexB ≠ []) {withTables : Bool} {unit : AccessUnit}
    {carried : List Carried} (single : UnitCarried codec withTables unit.pes carried) :
    Yields handleCarried carried (tuned (pending codec previous))
      ((emittedOf codec previous).map fun out => (out, tuned (pending codec (some unit)))) := by
  obtain ⟨chunks, cut, rfl⟩ := single
  have video := video_unit codec nonempty cut
  cases withTables with
  | false => exact video
  | true =>
    have both := (tables_again codec previous).append
      (fun _ => (emittedOf codec previous).map fun out =>
        (out, tuned (pending codec (some unit))))
      (by
        intro handled same
        obtain rfl := Option.some_inj.mp same
        exact video)
    simpa [Option.map_map, Function.comp_def] using both

theorem carried_first (codec : VideoCodec) (single : UnitCarried codec true unit.pes carried) :
    Yields handleCarried carried {} (some ([], tuned (pending codec (some unit)))) := by
  obtain ⟨chunks, cut, rfl⟩ := single
  have video := @video_unit codec none (by simp) unit chunks cut
  have both := (tables_first codec).append
    (fun _ => some ([], tuned (pending codec (some unit))))
    (by
      intro handled same
      obtain rfl := Option.some_inj.mp same
      exact video)
  simpa using both

/-- What a run of units emits, the last of them apart. -/
def emittedAll (codec : VideoCodec) : AccessUnit → List AccessUnit → Option (List MediaPacket)
  | _, [] => some []
  | unit, next :: units => do
    let out ← emitted codec unit
    let more ← emittedAll codec next units
    some (out ++ more)

theorem carried_run (codec : VideoCodec)
    (nonempty : ∀ one ∈ unit :: units, one.annexB ≠ []) {carried : List Carried}
    (run : RunCarried codec true units carried) :
    ∃ program, Yields handleCarried carried (tuned (pending codec (some unit)))
      ((emittedAll codec unit units).map fun out => (out, program)) := by
  induction units generalizing unit carried with
  | nil =>
    cases run
    exact ⟨_, .nil _⟩
  | cons next units ih =>
    cases run with
    | cons head run =>
      obtain ⟨program, later⟩ := @ih next
        (fun other member => nonempty other (mem_cons_of_mem _ member)) _ run
      have first := @carried_unit codec (some unit)
        (by simpa using nonempty unit (by simp)) _ next _ head
      refine ⟨program, ?_⟩
      have both := first.append
        (fun _ => (emittedAll codec next units).map fun out => (out, program))
        (by
          intro handled same
          obtain ⟨out, _, rfl⟩ := Option.map_eq_some_iff.mp same
          exact later)
      simp only [emittedOf, emittedAll] at both ⊢
      cases emits : emitted codec unit with
      | none => simpa [emits] using both
      | some out =>
        cases emitsLater : emittedAll codec next units with
        | none => simpa [emits, emitsLater] using both
        | some more => simpa [emits, emitsLater] using both

theorem Written.yields {continuity next : Nat → UInt8} (written : Written continuity packets carried next)
    (yields : Yields handleCarried carried program result) :
    Yields handlePacket packets program result := by
  have same : ∀ stamped : List (Nat × Bytes), stamped.map Prod.snd = packets →
      ∃ stampedCarried, stampedCarried.map Prod.snd = carried ∧
        ∀ program, handleAll handlePacket stamped program =
          handleAll handleCarried stampedCarried program := by
    clear yields
    induction written with
    | nil =>
      intro stamped same
      rw [map_eq_nil_iff.mp same]
      exact ⟨[], rfl, fun _ => rfl⟩
    | @cons _ _ packet packets carried more carries _ ih =>
      intro stamped same
      obtain ⟨first, rest, rfl, sameFirst, sameRest⟩ := map_eq_cons_iff.mp same
      obtain ⟨later, sameLater, handled⟩ := ih rest sameRest
      refine ⟨(first.1, carried) :: later, by simp [sameLater], fun program => ?_⟩
      have single := handlePacket_of_carries carries first.1 program
      rw [← sameFirst] at single
      simp only [handleAll, handleCarried, single, handled]
  intro stamped packetsOf
  obtain ⟨stampedCarried, sameCarried, handled⟩ := same stamped packetsOf
  rw [handled, yields stampedCarried sameCarried]

theorem feedAll_eq (pieces : List (Nat × Bytes)) (demux : Demux) :
    Demux.feedAll pieces demux =
      (feedChunks packetBytes handlePacket pieces demux.tsBuffer demux.program).map
        fun fed => (fed.1, { program := fed.2.2, tsBuffer := fed.2.1 }) := by
  induction pieces generalizing demux with
  | nil => rfl
  | cons piece pieces ih =>
    simp only [Demux.feedAll, feedChunks, Demux.feed, ih]
    cases drainChunks packetBytes (handlePacket piece.1) (demux.tsBuffer ++ piece.2).length
        (demux.tsBuffer ++ piece.2) demux.program with
    | none => rfl
    | some drained =>
      simp only [Option.bind_eq_bind, Option.bind_some]
      cases feedChunks packetBytes handlePacket pieces drained.2.1 drained.2.2 with
      | none => rfl
      | some fed => rfl

theorem feedAll_muxAll (codec : VideoCodec) (unit : AccessUnit) (units : List AccessUnit)
    (nonempty : ∀ one ∈ unit :: units, one.annexB ≠ []) {pieces : List (Nat × Bytes)}
    (cut : (pieces.map Prod.snd).flatten =
      (muxAll (unit :: units) (Muxer.new codec)).1.flatten) :
    ∃ demux, Demux.feedAll pieces {} =
      (emittedAll codec unit units).map fun out => (out, demux) := by
  obtain ⟨carried, run, written⟩ :=
    muxAll_written (unit :: units) nonempty (Muxer.new codec) (low_new codec)
  cases run with
  | cons head run =>
    obtain ⟨program, later⟩ := carried_run codec nonempty run
    have both := (carried_first codec head).append
      (fun _ => (emittedAll codec unit units).map fun out => (out, program))
      (by
        intro handled same
        obtain rfl := Option.some_inj.mp same
        exact later)
    have fed := (written.yields both).fed (by decide : 0 < packetBytes)
      (fun packet member => (written.isPacket packet member).size) cut
    refine ⟨{ program, tsBuffer := [] }, ?_⟩
    rw [feedAll_eq, fed]
    cases emittedAll codec unit units with
    | none => rfl
    | some out => rfl

/-- Everything emitted is a unit, in order, with its timestamp. -/
def AreUnits (out : List MediaPacket) (units : List AccessUnit) : Prop :=
  out.map (fun packet => (packet.payload, (packet.pts : Int))) =
    units.map fun unit => (unit.annexB, 90 * unit.ptsMs % 2 ^ 33)

theorem payloadOf_eq_self {buffer : Bytes} :
    payloadOf buffer = some buffer ↔ buffer.length < 2 ^ 31 := by
  rw [payloadOf]
  constructor
  · intro made
    by_cases positive : buffer.length % 2 ^ 32 < 2 ^ 31
    · rw [if_pos positive, Option.some_inj] at made
      have length := congrArg List.length made
      rw [length_take] at length
      omega
    · rw [if_neg positive] at made
      cases made
  · intro short
    rw [Nat.mod_eq_of_lt (by omega), if_pos short, List.take_length]

theorem pts_eq {unit : AccessUnit} (nonneg : 0 ≤ unit.ptsMs) :
    (unit.pts : Int) = 90 * unit.ptsMs % 2 ^ 33 := by
  rw [AccessUnit.pts, Muxer.pts90k]
  split <;> omega

theorem emittedAll_areUnits (codec : VideoCodec) (unit : AccessUnit) (units : List AccessUnit)
    (nonneg : ∀ one ∈ unit :: units, 0 ≤ one.ptsMs) :
    (∃ out, emittedAll codec unit units = some out ∧
        AreUnits out (unit :: units).dropLast) ↔
      ∀ one ∈ (unit :: units).dropLast, one.annexB.length < 2 ^ 31 := by
  induction units generalizing unit with
  | nil => simp [emittedAll, AreUnits]
  | cons next units ih =>
    have pts := pts_eq (nonneg unit (by simp))
    have later := ih next fun other member => nonneg other (mem_cons_of_mem _ member)
    rw [dropLast_cons_cons, forall_mem_cons, ← later, ← payloadOf_eq_self]
    simp only [emittedAll, emitted, AreUnits, Option.bind_eq_bind, Option.bind_eq_some_iff,
      Option.map_eq_some_iff]
    constructor
    · rintro ⟨_, ⟨_, ⟨payload, made, rfl⟩, more, emits, same⟩, units⟩
      obtain rfl := Option.some_inj.mp same
      simp only [cons_append, nil_append, map_cons, List.cons.injEq,
        Prod.mk.injEq] at units
      exact ⟨units.1.1 ▸ made, more, emits, units.2⟩
    · rintro ⟨made, more, emits, units⟩
      refine ⟨_, ⟨_, ⟨_, made, rfl⟩, more, emits, rfl⟩, ?_⟩
      simp only [cons_append, nil_append, map_cons, pts, units]

/-- A sequence of packets, counted for each PID. -/
structure IsTransportStream (packets : List Bytes) : Prop where
  all : ∀ packet ∈ packets, IsPacket packet
  counted : Counted packets

/-- Fed with these pieces, a new demuxer emits exactly these units. -/
def Emits (pieces : List (Nat × Bytes)) (units : List AccessUnit) : Prop :=
  ∃ out demux, Demux.feedAll pieces {} = some (out, demux) ∧ AreUnits out units

theorem emits_iff_short (codec : VideoCodec) (units : List AccessUnit) (last : AccessUnit)
    (nonempty : ∀ unit ∈ units ++ [last], unit.annexB ≠ [])
    (nonneg : ∀ unit ∈ units ++ [last], 0 ≤ unit.ptsMs)
    (cut : (pieces.map Prod.snd).flatten =
      (muxAll (units ++ [last]) (Muxer.new codec)).1.flatten) :
    Emits pieces units ↔ ∀ unit ∈ units, unit.annexB.length < 2 ^ 31 := by
  obtain ⟨first, rest, same⟩ := exists_cons_of_ne_nil (concat_ne_nil last units)
  rw [same] at nonempty nonneg cut
  have firsts : (first :: rest).dropLast = units := by rw [← same, dropLast_concat]
  obtain ⟨demux, fed⟩ := feedAll_muxAll codec first rest nonempty cut
  have emits := emittedAll_areUnits codec first rest nonneg
  rw [firsts] at emits
  rw [← emits, Emits]
  simp only [fed, Option.map_eq_some_iff, Prod.mk.injEq]
  constructor
  · rintro ⟨out, _, ⟨_, emitted, rfl, _⟩, are⟩
    exact ⟨_, emitted, are⟩
  · rintro ⟨out, emitted, are⟩
    exact ⟨out, demux, ⟨out, emitted, rfl, rfl⟩, are⟩

theorem isTransportStream_muxAll (codec : VideoCodec) (units : List AccessUnit)
    (nonempty : ∀ unit ∈ units, unit.annexB ≠ []) :
    IsTransportStream (muxAll units (Muxer.new codec)).1 := by
  obtain ⟨carried, _, written⟩ :=
    muxAll_written units nonempty (Muxer.new codec) (low_new codec)
  exact ⟨written.isPacket, written.counted⟩

/-- A muxed stream is a transport stream, and all its units but the last come out of it as they
were, exactly when each of them is shorter than two gigabytes. -/
theorem units_demuxed (codec : VideoCodec) (units : List AccessUnit) (last : AccessUnit)
    (nonempty : ∀ unit ∈ units ++ [last], unit.annexB ≠ [])
    (nonneg : ∀ unit ∈ units ++ [last], 0 ≤ unit.ptsMs) (pieces : List (Nat × Bytes))
    (cut : (pieces.map Prod.snd).flatten =
      (muxAll (units ++ [last]) (Muxer.new codec)).1.flatten) :
    IsTransportStream (muxAll (units ++ [last]) (Muxer.new codec)).1 ∧
      (Emits pieces units ↔ ∀ unit ∈ units, unit.annexB.length < 2 ^ 31) :=
  ⟨isTransportStream_muxAll codec _ nonempty,
    emits_iff_short codec units last nonempty nonneg cut⟩

theorem units_demuxed_two :
    let units : List AccessUnit := [{ annexB := [0x00], ptsMs := 40, keyFrame := true }]
    let last : AccessUnit := { annexB := [0x01], ptsMs := 80, keyFrame := false }
    let stream := (muxAll (units ++ [last]) (Muxer.new .h264)).1
    IsTransportStream stream ∧ (Emits [(0, stream.flatten)] units ↔
      ∀ unit ∈ units, unit.annexB.length < 2 ^ 31) :=
  units_demuxed .h264 _ _ (by simp) (by simp) [(0, _)] (by simp)

/-- A unit of which the size is not a number on 31 bits. -/
def largeUnit (size : Nat) : AccessUnit :=
  { annexB := List.replicate size 0x00, ptsMs := 0, keyFrame := true }

def smallUnit : AccessUnit := { annexB := [0x00], ptsMs := 0, keyFrame := false }

theorem not_emits_largeUnit (large : 2 ^ 31 ≤ size) :
    ¬Emits [(0, (muxAll [largeUnit size, smallUnit] (Muxer.new .h264)).1.flatten)]
      [largeUnit size] := by
  have nonempty : (largeUnit size).annexB ≠ [] := by
    rw [largeUnit, ne_eq, replicate_eq_nil_iff]
    omega
  rw [emits_iff_short .h264 [largeUnit size] smallUnit
    (by simpa [smallUnit] using nonempty) (by simp [largeUnit, smallUnit]) (by simp)]
  simpa [largeUnit] using large

theorem units_demuxed_large :
    ¬Emits [(0, (muxAll [largeUnit (2 ^ 31), smallUnit] (Muxer.new .h264)).1.flatten)]
      [largeUnit (2 ^ 31)] :=
  not_emits_largeUnit le_rfl

end SwStack.Ts
