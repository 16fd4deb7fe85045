import SwStack.Ts.Demux

/-! The packets that a muxer writes: what each carries, and the counters of each PID. -/
namespace SwStack.Ts

open SwStack.Lib List

/-- What a packet carries for a PID. -/
structure Carried where
  pid : Nat
  payloadStart : Bool
  payload : Bytes

/-- A packet that is read as carrying this. -/
structure Carries (packet : Bytes) (carried : Carried) (continuity : UInt8) : Prop where
  size : packet.length = packetBytes
  sync : packet.getD 0 0 = 0x47
  pid : packetPid packet = carried.pid
  payloadStart : decide (packet.getD 1 0 &&& 0x40 ≠ 0) = carried.payloadStart
  hasPayload : packet.getD 3 0 &&& 0x10 ≠ 0
  continuity : packet.getD 3 0 &&& 0x0F = continuity
  inside : payloadOffset packet < packetBytes
  payload : packet.drop (payloadOffset packet) = carried.payload

theorem handlePacket_of_carries
    (carries : Carries packet carried continuity) (timestampBase : Nat) (program : Program) :
    handlePacket timestampBase packet program =
      dispatch timestampBase carried.pid carried.payload carried.payloadStart program := by
  have payloadFollows : ¬(packet.getD 3 0 &&& 0x10 = 0 ∨ packet.length ≤ payloadOffset packet) := by
    rw [carries.size]
    exact not_or.mpr ⟨carries.hasPayload, Nat.not_le.mpr carries.inside⟩
  rw [handlePacket, if_neg (not_not.mpr carries.sync), if_neg payloadFollows, carries.pid,
    carries.payload, carries.payloadStart]

/-- Packets written one after another, each with the counter that its PID has reached. -/
inductive Written : (Nat → UInt8) → List Bytes → List Carried → (Nat → UInt8) → Prop
  | nil (continuity) : Written continuity [] [] continuity
  | cons {continuity next packet packets carried more} :
      Carries packet carried (continuity carried.pid) →
      Written (Function.update continuity carried.pid ((continuity carried.pid + 1) &&& 0x0F))
        packets more next →
      Written continuity (packet :: packets) (carried :: more) next

theorem Written.append {continuity middle next : Nat → UInt8} {first second : List Bytes}
    {carried more : List Carried} (here : Written continuity first carried middle)
    (later : Written middle second more next) :
    Written continuity (first ++ second) (carried ++ more) next := by
  induction here with
  | nil continuity => exact later
  | cons carries _ ih => exact .cons carries (ih later)

/-- A packet as it has to be: an adaptation field leaves room for a payload. -/
structure IsPacket (packet : Bytes) : Prop where
  size : packet.length = packetBytes
  sync : packet.getD 0 0 = 0x47
  adaptation : packet.getD 3 0 &&& 0x20 ≠ 0 → (packet.getD 4 0).toNat ≤ 182

def packetCounter (packet : Bytes) : UInt8 := packet.getD 3 0 &&& 0x0F

/-- The counters of each PID increase by one, modulo 16. -/
def Counted (packets : List Bytes) : Prop :=
  ∀ pid, (packets.filter fun packet => packetPid packet = pid).IsChain
    fun before after => packetCounter after = (packetCounter before + 1) &&& 0x0F

theorem Carries.isPacket {continuity : UInt8}
    (carries : Carries packet carried continuity) : IsPacket packet where
  size := carries.size
  sync := carries.sync
  adaptation := by
    intro hasField
    have inside := carries.inside
    rw [payloadOffset, if_pos hasField, packetBytes] at inside
    omega

variable {carried : List Carried} {continuity next : Nat → UInt8} {packets : List Bytes}

theorem Written.isPacket (written : Written continuity packets carried next) :
    ∀ packet ∈ packets, IsPacket packet := by
  induction written with
  | nil => simp
  | cons carries _ ih =>
    intro packet member
    cases mem_cons.mp member with
    | inl same => exact same ▸ carries.isPacket
    | inr later => exact ih packet later

theorem Written.counted_from (written : Written continuity packets carried next) (pid : Nat) :
    (∀ packet ∈ (packets.filter fun packet => packetPid packet = pid).head?,
        packetCounter packet = continuity pid) ∧
      (packets.filter fun packet => packetPid packet = pid).IsChain
        fun before after => packetCounter after = (packetCounter before + 1) &&& 0x0F := by
  induction written with
  | nil => simp
  | @cons continuity _ packet packets carried _ carries _ ih =>
    by_cases same : packetPid packet = pid
    · have counter : packetCounter packet = continuity pid := by
        rw [packetCounter, carries.continuity, ← carries.pid, same]
      rw [filter_cons_of_pos (by simpa using same)]
      constructor
      · simpa using counter
      · rw [isChain_cons]
        refine ⟨?_, ih.2⟩
        intro after first
        rw [ih.1 after first, ← carries.pid, same, Function.update_self, counter]
    · rw [filter_cons_of_neg (by simpa using same)]
      rw [← carries.pid, Function.update_of_ne (Ne.symm same)] at ih
      exact ih

theorem Written.counted (written : Written continuity packets carried next) : Counted packets :=
  fun pid => (written.counted_from pid).2

theorem length_packetHeader (pid : Nat) (payloadStart adaptation : Bool) (continuity : UInt8) :
    (packetHeader pid payloadStart adaptation continuity).length = 4 := rfl

theorem length_adaptationField (enough : withPcr = true → 8 ≤ size) :
    (adaptationField size payloadStart withPcr pts90k).length = size := by
  rw [adaptationField]
  by_cases absent : size = 0
  · rw [if_pos absent, absent]
    rfl
  · rw [if_neg absent]
    by_cases single : 2 ≤ size
    · cases withPcr with
      | true =>
        have room := enough rfl
        simp [single, pcrBytes]
        omega
      | false =>
        simp [single]
        omega
    · simp [single]
      omega

theorem head_adaptationField (nonzero : size ≠ 0) (rest : Bytes) :
    (adaptationField size payloadStart withPcr pts90k ++ rest).getD 0 0 = .ofNat (size - 1) := by
  rw [adaptationField, if_neg nonzero]
  rfl

theorem adaptationSize_eq (withPcr : Bool) (remaining : Nat) :
    adaptationSize withPcr remaining =
      184 - min remaining (if withPcr then 176 else 184) := by
  cases withPcr <;> simp [adaptationSize, packetBytes] <;> split_ifs <;> omega

theorem videoCapacity_eq (withPcr : Bool) (remaining : Nat) :
    packetBytes - 4 - adaptationSize withPcr remaining =
      min remaining (if withPcr then 176 else 184) := by
  rw [adaptationSize_eq, packetBytes]
  split <;> omega

/-- The PIDs that a muxer writes. -/
def IsMuxed (pid : Nat) : Prop := pid = 0 ∨ pid = kPmtPid ∨ pid = kVideoPid

theorem header_counter (continuity : UInt8) (low : continuity < 16) (adaptation : Bool) :
    let control : UInt8 := (if adaptation then 0x30 else 0x10) ||| continuity
    control &&& 0x10 ≠ 0 ∧ control &&& 0x0F = continuity ∧
      (control &&& 0x20 ≠ 0 ↔ adaptation = true) := by
  obtain ⟨value, small, rfl⟩ : ∃ value < 16, continuity = .ofNat value :=
    ⟨continuity.toNat, low, by simp⟩
  interval_cases value <;> cases adaptation <;> decide

theorem header_pid (muxed : IsMuxed pid) (payloadStart : Bool) :
    let first : UInt8 := .ofNat ((if payloadStart then 0x40 else 0x00) ||| ((pid >>> 8) &&& 0x1F))
    let second : UInt8 := .ofNat (pid &&& 0xFF)
    decide (first &&& 0x40 ≠ 0) = payloadStart ∧
      (first &&& 0x1F).toNat * 256 + second.toNat = pid := by
  rcases muxed with rfl | rfl | rfl <;> cases payloadStart <;> decide

/-- A packet of a header, an adaptation field that fills it, and a payload. -/
theorem carries_assembled {pid : Nat} {payloadStart adaptation : Bool} {continuity : UInt8}
    {field payload : Bytes} (muxed : IsMuxed pid) (low : continuity < 16)
    (whole : field.length + payload.length = 184) (filled : payload ≠ [])
    (declared : adaptation = true ↔ field ≠ [])
    (size : ∀ rest, adaptation = true → (field ++ rest).getD 0 0 = .ofNat (field.length - 1)) :
    Carries (packetHeader pid payloadStart adaptation continuity ++ (field ++ payload))
      { pid, payloadStart, payload } continuity := by
  obtain ⟨hasPayload, counter, hasField⟩ := header_counter continuity low adaptation
  obtain ⟨start, number⟩ := header_pid muxed payloadStart
  have nonempty := length_pos_iff.mpr filled
  have offset : payloadOffset (packetHeader pid payloadStart adaptation continuity ++
      (field ++ payload)) = 4 + field.length := by
    have field_iff : (packetHeader pid payloadStart adaptation continuity ++
        (field ++ payload)).getD 3 0 &&& 0x20 ≠ 0 ↔ adaptation = true := hasField
    rw [payloadOffset]
    by_cases withField : adaptation = true
    · have fieldSize := size payload withField
      have positive := length_pos_iff.mpr (declared.mp withField)
      rw [if_pos (field_iff.mpr withField)]
      have fourth : (packetHeader pid payloadStart adaptation continuity ++
          (field ++ payload)).getD 4 0 = (field ++ payload).getD 0 0 := rfl
      rw [fourth, fieldSize, UInt8.toNat_ofNat', Nat.mod_eq_of_lt (by omega)]
      omega
    · have empty : field = [] := not_not.mp (mt declared.mpr withField)
      rw [if_neg (mt field_iff.mp withField), empty]
      rfl
  refine ⟨?_, rfl, number, start, hasPayload, counter, ?_, ?_⟩
  · rw [length_append, length_append, length_packetHeader, whole, packetBytes]
  · rw [offset, packetBytes]
    omega
  · rw [offset, ← append_assoc]
    exact drop_left' (by rw [length_append, length_packetHeader])

/-- Counters that fit their four bits. -/
def Low (continuity : Nat → UInt8) : Prop := ∀ pid, continuity pid < 16

theorem low_new (codec : VideoCodec) : Low (Muxer.new codec).continuity := by
  intro pid
  change (0 : UInt8) < 16
  decide

theorem Low.update (low : Low continuity) (pid : Nat) :
    Low (Function.update continuity pid ((continuity pid + 1) &&& 0x0F)) := by
  intro other
  by_cases same : other = pid
  · rw [same, Function.update_self, UInt8.lt_iff_toNat_lt, UInt8.toNat_and]
    exact @Nat.and_lt_two_pow _ _ 4 (by decide)
  · rw [Function.update_of_ne same]
    exact low other

theorem Written.low (written : Written continuity packets carried next)
    (low : Low continuity) : Low next := by
  induction written with
  | nil => exact low
  | cons _ _ ih => exact ih (low.update _)

theorem length_finishSection (tableId : UInt8) (body : Bytes) :
    (finishSection tableId body).length = body.length + 7 := by
  simp only [finishSection, length_append, length_cons, length_bigEndian]

theorem length_patSection : patSection.length = 16 := length_finishSection _ _

theorem length_pmtSection (codec : VideoCodec) : (pmtSection codec).length = 21 :=
  length_finishSection _ _

theorem length_sectionPayload {data : Bytes} (fits : data.length ≤ 183) :
    (sectionPayload data).length = 184 := by
  simp [sectionPayload, packetBytes]
  omega

/-- A packet of one section. -/
def sectionCarried (pid : Nat) (data : Bytes) : Carried :=
  { pid, payloadStart := true, payload := sectionPayload data }

/-- The packets of the tables. -/
def tablesCarried (codec : VideoCodec) : List Carried :=
  [sectionCarried 0x0000 patSection, sectionCarried kPmtPid (pmtSection codec)]

/-- The packets of a video unit that is cut into these chunks. -/
def videoCarried (first : Bool) : List Bytes → List Carried
  | [] => []
  | chunk :: chunks =>
    { pid := kVideoPid, payloadStart := first, payload := chunk } :: videoCarried false chunks

theorem appendSection_carries {muxer : Muxer} (low : Low muxer.continuity) {pid : Nat}
    (muxed : IsMuxed pid) {data : Bytes} (fits : data.length ≤ 183) :
    Carries (muxer.appendSection pid data).1 (sectionCarried pid data)
      (muxer.continuity pid) := by
  have whole : ([] : Bytes).length + (sectionPayload data).length = 184 := by
    rw [length_sectionPayload fits]
    rfl
  exact carries_assembled muxed (low pid) whole (cons_ne_nil _ _) (by simp) (by simp)

theorem appendVideoTsPacket_carries {muxer : Muxer} (low : Low muxer.continuity)
    (filled : rest ≠ []) (payloadStart withPcr : Bool) (pts90k : Nat) :
    Carries (muxer.appendVideoTsPacket rest payloadStart withPcr pts90k).1
      { pid := kVideoPid, payloadStart, payload := rest.take (if withPcr then 176 else 184) }
      (muxer.continuity kVideoPid) := by
  have nonempty := length_pos_iff.mpr filled
  have size := adaptationSize_eq withPcr rest.length
  have fieldLength : (adaptationField (adaptationSize withPcr rest.length) payloadStart withPcr
      pts90k).length = adaptationSize withPcr rest.length := by
    apply length_adaptationField
    intro isPcr
    rw [size, if_pos isPcr]
    omega
  have payload : rest.take (packetBytes - 4 - adaptationSize withPcr rest.length) =
      rest.take (if withPcr then 176 else 184) := by
    rw [videoCapacity_eq, Nat.min_comm, ← take_eq_take_min]
  have assembled := @carries_assembled kVideoPid payloadStart
    (decide (0 < adaptationSize withPcr rest.length)) _
    (adaptationField (adaptationSize withPcr rest.length) payloadStart withPcr pts90k)
    (rest.take (if withPcr then 176 else 184)) (.inr (.inr rfl)) (low kVideoPid) ?_ ?_ ?_ ?_
  · rw [← payload] at assembled ⊢
    exact assembled
  · rw [fieldLength, length_take, size]
    split <;> omega
  · rw [← length_pos_iff, length_take]
    split <;> omega
  · rw [decide_eq_true_iff, ← length_pos_iff, fieldLength]
  · intro more declared
    rw [fieldLength]
    exact head_adaptationField (Nat.pos_iff_ne_zero.mp (of_decide_eq_true declared)) more

theorem appendVideoTsPacket_rest (muxer : Muxer) (rest : Bytes) (payloadStart withPcr : Bool)
    (pts90k : Nat) :
    (muxer.appendVideoTsPacket rest payloadStart withPcr pts90k).2.1 =
      rest.drop (if withPcr then 176 else 184) := by
  change rest.drop (packetBytes - 4 - adaptationSize withPcr rest.length) = _
  rw [videoCapacity_eq]
  by_cases short : rest.length ≤ (if withPcr then 176 else 184)
  · rw [Nat.min_eq_left short, drop_length, drop_eq_nil_of_le short]
  · rw [Nat.min_eq_right (Nat.le_of_not_le short)]

/-- A unit cut into the chunks of its packets. The first holds at least the PES header. -/
structure ChunksOf (unit : Bytes) (chunks : List Bytes) : Prop where
  covers : chunks.flatten = unit
  nonempty : ∀ chunk ∈ chunks, chunk ≠ []
  first : ∀ chunk ∈ chunks.head?, min unit.length 176 ≤ chunk.length

theorem appendVideoTsPackets_succ (keyFrame : Bool) (pts90k fuel : Nat) (first : Bool)
    (nonempty : rest ≠ []) (muxer : Muxer) :
    muxer.appendVideoTsPackets keyFrame pts90k (fuel + 1) first rest =
      let step := muxer.appendVideoTsPacket rest first (first && keyFrame) pts90k
      let later := step.2.2.appendVideoTsPackets keyFrame pts90k fuel false step.2.1
      (step.1 :: later.1, later.2) := by
  rw [Muxer.appendVideoTsPackets, if_neg (by simpa using nonempty)]

theorem appendVideoTsPackets_written (keyFrame : Bool) (pts90k fuel : Nat) (first : Bool)
    (rest : Bytes) (enough : rest.length ≤ fuel) (muxer : Muxer) (low : Low muxer.continuity) :
    let written := muxer.appendVideoTsPackets keyFrame pts90k fuel first rest
    written.2.codec = muxer.codec ∧ written.2.tablesEmitted = muxer.tablesEmitted ∧
      ∃ chunks, ChunksOf rest chunks ∧
        Written muxer.continuity written.1 (videoCarried first chunks) written.2.continuity := by
  induction fuel generalizing first rest muxer with
  | zero =>
    have nothing := length_eq_zero_iff.mp (Nat.le_zero.mp enough)
    exact ⟨rfl, rfl, [], ⟨nothing.symm, by simp, by simp⟩, .nil _⟩
  | succ fuel ih =>
    by_cases done : rest = []
    · rw [Muxer.appendVideoTsPackets, if_pos (by simpa using done)]
      exact ⟨rfl, rfl, [], ⟨done.symm, by simp, by simp⟩, .nil _⟩
    · have nonempty := length_pos_iff.mpr done
      have carries := appendVideoTsPacket_carries low done first (first && keyFrame) pts90k
      have left := appendVideoTsPacket_rest muxer rest first (first && keyFrame) pts90k
      have fewer : (rest.drop (if first && keyFrame then 176 else 184)).length ≤ fuel := by
        rw [length_drop]
        split <;> omega
      rw [← left] at fewer
      obtain ⟨codec, tables, chunks, cut, written⟩ := ih false _ fewer
        (muxer.appendVideoTsPacket rest first (first && keyFrame) pts90k).2.2 (low.update _)
      rw [left] at cut
      rw [appendVideoTsPackets_succ keyFrame pts90k fuel first done]
      refine ⟨codec, tables, rest.take (if first && keyFrame then 176 else 184) :: chunks,
        ⟨?_, ?_, ?_⟩, .cons carries written⟩
      · rw [flatten_cons, cut.covers, take_append_drop]
      · intro chunk member
        cases mem_cons.mp member with
        | inl same =>
          rw [same, ← length_pos_iff, length_take]
          split <;> omega
        | inr later => exact cut.nonempty chunk later
      · intro chunk same
        obtain rfl : rest.take (if first && keyFrame then 176 else 184) = chunk := by
          simpa using same
        rw [length_take]
        split <;> omega

/-- An access unit behind its header. -/
def AccessUnit.pes (unit : AccessUnit) : Bytes :=
  Muxer.pesHeader (Muxer.pts90k unit.ptsMs) ++ unit.annexB

/-- What the packets of one access unit carry. -/
def UnitCarried (codec : VideoCodec) (withTables : Bool) (pes : Bytes)
    (carried : List Carried) : Prop :=
  ∃ chunks, ChunksOf pes chunks ∧
    carried = (if withTables then tablesCarried codec else []) ++ videoCarried true chunks

theorem appendTables_written (keyFrame : Bool) (muxer : Muxer) (low : Low muxer.continuity) :
    let written := muxer.appendTables keyFrame
    written.2.codec = muxer.codec ∧ written.2.tablesEmitted = true ∧
      Written muxer.continuity written.1
        (if !muxer.tablesEmitted || keyFrame then tablesCarried muxer.codec else [])
        written.2.continuity := by
  cases withTables : !muxer.tablesEmitted || keyFrame with
  | true =>
    simp only [Muxer.appendTables, withTables, if_true]
    exact ⟨rfl, trivial,
      .cons (appendSection_carries low (.inl rfl) (by rw [length_patSection]; decide))
        (.cons (appendSection_carries (low.update _) (.inr (.inl rfl))
          (by rw [length_pmtSection]; decide)) (.nil _))⟩
  | false =>
    simp only [Muxer.appendTables, withTables, Bool.false_eq_true, if_false, true_and]
    refine ⟨?_, .nil _⟩
    cases known : muxer.tablesEmitted with
    | true => rfl
    | false => simp [known] at withTables

theorem muxAccessUnit_eq (unit : AccessUnit) (nonempty : unit.annexB ≠ []) (muxer : Muxer) :
    muxer.muxAccessUnit unit.annexB unit.ptsMs unit.keyFrame =
      let tables := muxer.appendTables unit.keyFrame
      let video := tables.2.appendVideoTsPackets unit.keyFrame (Muxer.pts90k unit.ptsMs)
        unit.pes.length true unit.pes
      (tables.1 ++ video.1, video.2) := by
  rw [Muxer.muxAccessUnit, if_neg (by simpa using nonempty), ← AccessUnit.pes]

theorem muxAccessUnit_written (unit : AccessUnit) (nonempty : unit.annexB ≠ []) (muxer : Muxer)
    (low : Low muxer.continuity) :
    let written := muxer.muxAccessUnit unit.annexB unit.ptsMs unit.keyFrame
    written.2.codec = muxer.codec ∧ written.2.tablesEmitted = true ∧
      ∃ carried, UnitCarried muxer.codec (!muxer.tablesEmitted || unit.keyFrame) unit.pes carried ∧
        Written muxer.continuity written.1 carried written.2.continuity := by
  obtain ⟨tablesCodec, emitted, tables⟩ := appendTables_written unit.keyFrame muxer low
  rw [muxAccessUnit_eq unit nonempty]
  generalize unit.pes = pes
  obtain ⟨codec, still, chunks, cut, video⟩ := appendVideoTsPackets_written unit.keyFrame
    (Muxer.pts90k unit.ptsMs) pes.length true pes le_rfl
    (muxer.appendTables unit.keyFrame).2 (tables.low low)
  exact ⟨codec.trans tablesCodec, still.trans emitted, _, ⟨chunks, cut, rfl⟩,
    tables.append video⟩

/-- What the packets of a run of access units carry. -/
inductive RunCarried (codec : VideoCodec) : Bool → List AccessUnit → List Carried → Prop
  | nil (tablesEmitted) : RunCarried codec tablesEmitted [] []
  | cons {tablesEmitted unit units carried more} :
      UnitCarried codec (!tablesEmitted || unit.keyFrame) unit.pes carried →
      RunCarried codec true units more →
      RunCarried codec tablesEmitted (unit :: units) (carried ++ more)

theorem muxAll_written (units : List AccessUnit) (nonempty : ∀ unit ∈ units, unit.annexB ≠ [])
    (muxer : Muxer) (low : Low muxer.continuity) :
    ∃ carried, RunCarried muxer.codec muxer.tablesEmitted units carried ∧
      Written muxer.continuity (muxAll units muxer).1 carried
        (muxAll units muxer).2.continuity := by
  induction units generalizing muxer with
  | nil => exact ⟨[], .nil _, .nil _⟩
  | cons unit units ih =>
    obtain ⟨codec, emitted, carried, first, written⟩ :=
      muxAccessUnit_written unit (nonempty unit (by simp)) muxer low
    obtain ⟨more, run, later⟩ := ih (fun other member => nonempty other (by simp [member]))
      (muxer.muxAccessUnit unit.annexB unit.ptsMs unit.keyFrame).2 (written.low low)
    rw [codec, emitted] at run
    exact ⟨carried ++ more, .cons first run, written.append later⟩

end SwStack.Ts
