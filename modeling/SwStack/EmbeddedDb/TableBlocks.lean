import SwStack.EmbeddedDb.TableFile
import SwStack.EmbeddedDb.WalRoundTrip

/-! The blocks of a table file: which records each gets, what is written of them, and what is read
back when sizes fit 32 bits. -/
namespace SwStack.EmbeddedDb.TableFile

open SwStack.Lib List

def recordBytes (record : TableRecord) : Nat := (encodeTableRecord record).length

def encodeRecords (records : List TableRecord) : Bytes := records.flatMap encodeTableRecord

/-- A record of which both sizes fit. -/
def Fits (record : TableRecord) : Prop :=
  record.userKey.length < 2 ^ 32 ∧ record.payload.length < 2 ^ 32

theorem recordBytes_eq (record : TableRecord) :
    recordBytes record = 20 + record.userKey.length + record.payload.length := by
  simp only [recordBytes, encodeTableRecord, length_append, length_writeBytes,
    length_writeU64LE, length_writeU32LE]
  omega

theorem length_encodeRecords (records : List TableRecord) :
    (encodeRecords records).length = (records.map recordBytes).sum := by
  rw [encodeRecords, length_flatMap]
  rfl

theorem readBytes_reads (fits : bytes.length < 2 ^ 32) :
    readBytes.Reads (writeBytes bytes) bytes := by
  have stored : bytes.length = (UInt32.ofNat bytes.length).toNat := (Nat.mod_eq_of_lt fits).symm
  exact (readU32LE_reads _).bind (Reader.Reads.take stored)

theorem decodeTableRecord_reads (fits : Fits record) :
    decodeTableRecord.Reads (encodeTableRecord record) record := by
  refine (readBytes_reads fits.1).bind ((readU64LE_reads record.sequence).bind
    ((readU32LE_reads record.flags).bind ?_))
  exact (readBytes_reads fits.2).bind_pure fun payload => { record with payload }

theorem length_of_readNumber {width : Nat} {value : Nat}
    (read : readNumber width input = some (value, rest)) : input.length = width + rest.length := by
  rw [readNumber, Reader.bind_apply, Reader.take] at read
  split at read
  · obtain ⟨rfl, rfl⟩ := Prod.mk.inj (Option.some_inj.mp read)
    rw [length_drop]
    omega
  · cases read

theorem length_of_readWord {width : Nat} {word : Nat → α} {value : α}
    (read : (readNumber width >>= fun number => pure (word number)) input = some (value, rest)) :
    input.length = width + rest.length := by
  rw [Reader.bind_apply] at read
  obtain ⟨number, inner, same⟩ := Option.bind_eq_some_iff.mp read
  obtain ⟨rfl, rfl⟩ := Prod.mk.inj (Option.some_inj.mp same)
  exact length_of_readNumber inner

theorem length_of_readU32LE {value : UInt32}
    (read : readU32LE input = some (value, rest)) : input.length = 4 + rest.length :=
  length_of_readWord read

theorem length_of_readU64LE {value : UInt64}
    (read : readU64LE input = some (value, rest)) : input.length = 8 + rest.length :=
  length_of_readWord read

theorem length_of_readBytes (read : readBytes input = some (bytes, rest)) :
    input.length = 4 + bytes.length + rest.length ∧ bytes.length < 2 ^ 32 := by
  rw [readBytes, Reader.bind_apply] at read
  obtain ⟨⟨size, rest'⟩, first, second⟩ := Option.bind_eq_some_iff.mp read
  have length := length_of_readU32LE first
  rw [Reader.take] at second
  split at second
  · obtain ⟨rfl, rfl⟩ := Prod.mk.inj (Option.some_inj.mp second)
    have small := size.toNat_lt
    rw [length_take, length_drop]
    dsimp only at *
    omega
  · cases second

/-- What is decoded fits, and is as long as what was read. -/
theorem length_of_decodeTableRecord (read : decodeTableRecord input = some (record, rest)) :
    Fits record ∧ input.length = recordBytes record + rest.length := by
  rw [decodeTableRecord, Reader.bind_apply] at read
  obtain ⟨⟨userKey, input₁⟩, key, read⟩ := Option.bind_eq_some_iff.mp read
  rw [Reader.bind_apply] at read
  obtain ⟨⟨sequence, input₂⟩, number, read⟩ := Option.bind_eq_some_iff.mp read
  rw [Reader.bind_apply] at read
  obtain ⟨⟨flags, input₃⟩, flag, read⟩ := Option.bind_eq_some_iff.mp read
  rw [Reader.bind_apply] at read
  obtain ⟨⟨payload, input₄⟩, value, same⟩ := Option.bind_eq_some_iff.mp read
  obtain ⟨rfl, rfl⟩ := Prod.mk.inj (Option.some_inj.mp same)
  obtain ⟨keyLength, keySmall⟩ := length_of_readBytes key
  obtain ⟨valueLength, valueSmall⟩ := length_of_readBytes value
  have numberLength := length_of_readU64LE number
  have flagLength := length_of_readU32LE flag
  refine ⟨⟨keySmall, valueSmall⟩, ?_⟩
  rw [recordBytes_eq]
  dsimp only at *
  omega

theorem encodeTableRecord_ne_nil (record : TableRecord) (rest : Bytes) :
    ¬(encodeTableRecord record ++ rest).isEmpty = true := by
  have size := recordBytes_eq record
  rw [recordBytes] at size
  rw [List.isEmpty_iff, ← length_eq_zero_iff, length_append]
  omega

theorem decodeRecords_encodeRecords (fits : ∀ record ∈ records, Fits record)
    (enough : records.length ≤ fuel) :
    decodeRecords fuel (encodeRecords records) = some records := by
  induction records generalizing fuel with
  | nil => cases fuel <;> rfl
  | cons record records ih =>
    cases fuel with
    | zero => exact absurd enough (by simp)
    | succ fuel =>
      have first := decodeTableRecord_reads (fits record (by simp)) (encodeRecords records)
      have rest := ih (fun other member => fits other (by simp [member]))
        (Nat.le_of_succ_le_succ enough)
      have whole : encodeRecords (record :: records) =
        encodeTableRecord record ++ encodeRecords records := rfl
      rw [decodeRecords, whole, if_neg (encodeTableRecord_ne_nil record _), first]
      simp only [Option.bind_eq_bind, Option.bind_some, rest]

theorem length_of_decodeRecords (decoded : decodeRecords fuel payload = some records) :
    (∀ record ∈ records, Fits record) ∧ (records.map recordBytes).sum ≤ payload.length := by
  induction fuel generalizing payload records with
  | zero =>
    obtain rfl := Option.some_inj.mp decoded
    simp
  | succ fuel ih =>
    rw [decodeRecords] at decoded
    split at decoded
    · obtain rfl := Option.some_inj.mp decoded
      simp
    · obtain ⟨⟨record, rest⟩, read, decoded⟩ := Option.bind_eq_some_iff.mp decoded
      obtain ⟨more, later, same⟩ := Option.bind_eq_some_iff.mp decoded
      obtain rfl := Option.some_inj.mp same
      obtain ⟨fits, length⟩ := length_of_decodeTableRecord read
      obtain ⟨allFit, total⟩ := ih later
      refine ⟨forall_mem_cons.mpr ⟨fits, allFit⟩, ?_⟩
      rw [map_cons, sum_cons]
      omega

/-- The blocks of records behind those of the open block. -/
def splitBlocks (current : List TableRecord) : List TableRecord → List (List TableRecord)
  | [] => if current.isEmpty then [] else [current]
  | record :: records =>
    if !current.isEmpty &&
        decide (kBlockSize < .ofNat ((encodeRecords current).length + recordBytes record)) then
      current :: splitBlocks [record] records
    else splitBlocks (current ++ [record]) records

/-- The sizes of the blocks of records of these sizes, behind an open block. A size is compared on
32 bits. -/
def blockSizes (openSize : Nat) : List Nat → List Nat
  | [] => if openSize = 0 then [] else [openSize]
  | size :: sizes =>
    if openSize ≠ 0 ∧ kBlockSize < .ofNat (openSize + size) then
      openSize :: blockSizes size sizes
    else blockSizes (openSize + size) sizes

theorem flatten_splitBlocks (current records : List TableRecord) :
    (splitBlocks current records).flatten = current ++ records := by
  induction records generalizing current with
  | nil =>
    rw [splitBlocks]
    split <;> simp_all
  | cons record records ih =>
    rw [splitBlocks]
    split
    · rw [flatten_cons, ih]
      rfl
    · rw [ih, append_assoc]
      rfl

theorem ne_nil_of_mem_splitBlocks (member : block ∈ splitBlocks current records) : block ≠ [] := by
  induction records generalizing current with
  | nil =>
    rw [splitBlocks] at member
    split at member
    · cases member
    · rename_i nonempty
      obtain rfl := mem_singleton.mp member
      simpa using nonempty
  | cons record records ih =>
    rw [splitBlocks] at member
    split at member
    · rename_i full
      cases mem_cons.mp member with
      | inl same =>
        rw [same]
        intro empty
        simp [empty] at full
      | inr later => exact ih later
    · exact ih member

theorem length_encodeRecords_eq_zero : (encodeRecords records).length = 0 ↔ records = [] := by
  cases records with
  | nil => simp [encodeRecords]
  | cons record records =>
    have size := recordBytes_eq record
    rw [length_encodeRecords, map_cons, sum_cons]
    simp
    omega

theorem map_length_splitBlocks (current records : List TableRecord) :
    (splitBlocks current records).map (fun block => (encodeRecords block).length) =
      blockSizes (encodeRecords current).length (records.map recordBytes) := by
  induction records generalizing current with
  | nil =>
    rw [splitBlocks, map_nil, blockSizes]
    by_cases empty : current = []
    · simp [empty, encodeRecords]
    · rw [if_neg (by simpa using empty), if_neg (mt length_encodeRecords_eq_zero.mp empty)]
      rfl
  | cons record records ih =>
    have single : (encodeRecords [record]).length = recordBytes record := by
      simp [encodeRecords, recordBytes]
    have joined : (encodeRecords (current ++ [record])).length =
        (encodeRecords current).length + recordBytes record := by
      simp [encodeRecords, recordBytes]
    rw [splitBlocks, map_cons, blockSizes]
    by_cases full : (encodeRecords current).length ≠ 0 ∧
        kBlockSize < .ofNat ((encodeRecords current).length + recordBytes record)
    · have nonempty : ¬current.isEmpty = true := by
        rw [List.isEmpty_iff]
        exact mt length_encodeRecords_eq_zero.mpr full.1
      have overfull : (!current.isEmpty && decide (kBlockSize <
          .ofNat ((encodeRecords current).length + recordBytes record))) = true := by
        rw [Bool.and_eq_true, decide_eq_true_iff, Bool.not_eq_true']
        exact ⟨Bool.eq_false_iff.mpr nonempty, full.2⟩
      rw [if_pos full, if_pos overfull, map_cons, ih, single]
    · have notFull : ¬(!current.isEmpty && decide (kBlockSize <
          .ofNat ((encodeRecords current).length + recordBytes record))) = true := by
        rw [Bool.and_eq_true, decide_eq_true_iff, Bool.not_eq_true', isEmpty_eq_false_iff]
        exact fun both => full ⟨mt length_encodeRecords_eq_zero.mp both.1, both.2⟩
      rw [if_neg full, if_neg notFull, ih, joined]

variable (crc32 : Bytes → UInt32)

def frameOf (block : List TableRecord) : Bytes := blockFrame crc32 (encodeRecords block)

def headKey (block : List TableRecord) : Bytes := (block.head?.map TableRecord.userKey).getD []

/-- The index of blocks that are written one after another. -/
def indexFrom (offset : Nat) : List (List TableRecord) → List BlockIndexEntry
  | [] => []
  | block :: blocks =>
    { firstKey := headKey block
      offset := .ofNat offset
      bytes := .ofNat (frameOf crc32 block).length } ::
      indexFrom (offset + (frameOf crc32 block).length) blocks

/-- A writer whose open block has these records. -/
structure Holds (writer : Writer) (current : List TableRecord) : Prop where
  payload : writer.blockPayload = encodeRecords current
  firstKey : current ≠ [] → writer.firstKey = headKey current

theorem flushBlock_of_holds (holds : Holds writer current) (filled : current ≠ []) :
    flushBlock crc32 writer = { writer with
      file := writer.file ++ frameOf crc32 current
      blocks := writer.blocks ++ indexFrom crc32 writer.file.length [current] } := by
  have nonempty : ¬writer.blockPayload.isEmpty = true := by
    rw [holds.payload, List.isEmpty_iff, ← length_eq_zero_iff]
    exact mt length_encodeRecords_eq_zero.mp filled
  rw [flushBlock, if_neg nonempty, holds.payload, holds.firstKey filled]
  rfl

theorem isEmpty_of_holds
    (holds : Holds writer current) : writer.blockPayload.isEmpty = current.isEmpty := by
  rw [holds.payload, Bool.eq_iff_iff, List.isEmpty_iff, List.isEmpty_iff, ← length_eq_zero_iff]
  exact length_encodeRecords_eq_zero

theorem writeRecord_of_full (holds : Holds writer current)
    (full : (!current.isEmpty && decide (kBlockSize <
      .ofNat ((encodeRecords current).length + recordBytes record))) = true) :
    writeRecord crc32 writer record =
      { file := writer.file ++ frameOf crc32 current
        blocks := writer.blocks ++ indexFrom crc32 writer.file.length [current]
        bloom := writer.bloom.add record.userKey
        firstKey := record.userKey
        blockPayload := encodeTableRecord record } := by
  have nonempty : current ≠ [] := by
    rintro rfl
    simp at full
  have overfull : (!writer.blockPayload.isEmpty && decide (kBlockSize <
      .ofNat (writer.blockPayload.length + (encodeTableRecord record).length))) = true := by
    rw [isEmpty_of_holds holds, holds.payload]
    exact full
  rw [writeRecord, if_pos overfull, flushBlock_of_holds crc32 holds nonempty]
  rfl

theorem writeRecord_of_room (holds : Holds writer current)
    (room : ¬(!current.isEmpty && decide (kBlockSize <
      .ofNat ((encodeRecords current).length + recordBytes record))) = true) :
    writeRecord crc32 writer record =
      { writer with
        bloom := writer.bloom.add record.userKey
        firstKey := if current.isEmpty then record.userKey else writer.firstKey
        blockPayload := encodeRecords current ++ encodeTableRecord record } := by
  have notFull : ¬(!writer.blockPayload.isEmpty && decide (kBlockSize <
      .ofNat (writer.blockPayload.length + (encodeTableRecord record).length))) = true := by
    rw [isEmpty_of_holds holds, holds.payload]
    exact room
  rw [writeRecord, if_neg notFull, isEmpty_of_holds holds, holds.payload]

theorem written_blocks {writer : Writer} {current : List TableRecord} (records : List TableRecord)
    (holds : Holds writer current) :
    let final := flushBlock crc32 (records.foldl (writeRecord crc32) writer)
    final.file = writer.file ++ (splitBlocks current records).flatMap (frameOf crc32) ∧
      final.blocks = writer.blocks ++
        indexFrom crc32 writer.file.length (splitBlocks current records) ∧
      final.bloom = records.foldl (fun bloom record => bloom.add record.userKey) writer.bloom := by
  induction records generalizing writer current with
  | nil =>
    by_cases empty : current = []
    · have payload : writer.blockPayload.isEmpty = true := by
        rw [isEmpty_of_holds holds, empty]
        rfl
      simp [flushBlock, payload, splitBlocks, empty, indexFrom]
    · rw [foldl_nil, flushBlock_of_holds crc32 holds empty, splitBlocks,
        if_neg (by simpa using empty)]
      simp
  | cons record records ih =>
    rw [foldl_cons, splitBlocks]
    by_cases full : (!current.isEmpty && decide (kBlockSize <
        .ofNat ((encodeRecords current).length + recordBytes record))) = true
    · have next : Holds (writeRecord crc32 writer record) [record] := by
        rw [writeRecord_of_full crc32 holds full]
        exact ⟨(append_nil _).symm, fun _ => rfl⟩
      obtain ⟨file, blocks, bloom⟩ := ih next
      rw [writeRecord_of_full crc32 holds full] at file blocks bloom ⊢
      rw [if_pos full]
      refine ⟨file.trans ?_, blocks.trans ?_, bloom⟩
      · rw [flatMap_cons, append_assoc]
      · rw [append_assoc, length_append]
        rfl
    · have next : Holds (writeRecord crc32 writer record) (current ++ [record]) := by
        rw [writeRecord_of_room crc32 holds full]
        refine ⟨by simp [encodeRecords], fun _ => ?_⟩
        cases current with
        | nil => rfl
        | cons first rest => exact holds.firstKey (cons_ne_nil _ _)
      obtain ⟨file, blocks, bloom⟩ := ih next
      rw [writeRecord_of_room crc32 holds full] at file blocks bloom ⊢
      rw [if_neg full]
      exact ⟨file, blocks, bloom⟩

theorem length_of_locateBlockPayload
    (located : locateBlockPayload file entry = some (payload, crc)) :
    payload.length + 8 ≤ entry.bytes.toNat := by
  rw [locateBlockPayload] at located
  split at located
  · cases located
  · obtain ⟨⟨found, rest⟩, read, rfl⟩ := Option.map_eq_some_iff.mp located
    rw [readBlock, Reader.bind_apply] at read
    obtain ⟨⟨size, input₁⟩, first, read⟩ := Option.bind_eq_some_iff.mp read
    rw [Reader.bind_apply] at read
    obtain ⟨⟨sum, input₂⟩, second, read⟩ := Option.bind_eq_some_iff.mp read
    rw [Reader.bind_apply] at read
    obtain ⟨⟨taken, input₃⟩, third, same⟩ := Option.bind_eq_some_iff.mp read
    obtain ⟨same, _⟩ := Prod.mk.inj (Option.some_inj.mp same)
    obtain ⟨rfl, _⟩ := Prod.mk.inj same
    have firstLength := length_of_readU32LE first
    have secondLength := length_of_readU32LE second
    rw [Reader.take] at third
    split at third
    · obtain ⟨rfl, _⟩ := Prod.mk.inj (Option.some_inj.mp third)
      rw [length_take] at firstLength
      rw [length_take]
      dsimp only at *
      omega
    · cases third

/-- The records of a block are no longer than its entry says. -/
theorem length_of_iterateFrom (iterated : TableHandle.iterateFrom file blocks = some records) :
    (∀ record ∈ records, Fits record) ∧
      (records.map recordBytes).sum ≤ (blocks.map fun entry => entry.bytes.toNat - 8).sum := by
  induction blocks generalizing records with
  | nil =>
    obtain rfl := Option.some_inj.mp iterated
    simp
  | cons block blocks ih =>
    rw [TableHandle.iterateFrom] at iterated
    obtain ⟨here, decoded, iterated⟩ := Option.bind_eq_some_iff.mp iterated
    obtain ⟨more, later, same⟩ := Option.bind_eq_some_iff.mp iterated
    obtain rfl := Option.some_inj.mp same
    rw [decodeBlock] at decoded
    obtain ⟨⟨payload, crc⟩, located, decoded⟩ := Option.bind_eq_some_iff.mp decoded
    have room := length_of_locateBlockPayload located
    obtain ⟨hereFit, hereLength⟩ := length_of_decodeRecords decoded
    obtain ⟨moreFit, moreLength⟩ := ih later
    constructor
    · intro record member
      cases mem_append.mp member with
      | inl first => exact hereFit record first
      | inr second => exact moreFit record second
    · rw [map_append, sum_append, map_cons, sum_cons]
      omega

/-- An entry by which a block is found in a file. -/
def Locates (file : Bytes) (entry : BlockIndexEntry) (block : List TableRecord) : Prop :=
  entry.firstKey = headKey block ∧
    locateBlockPayload file entry =
      some (encodeRecords block, crc32Bytes crc32 (encodeRecords block))

theorem length_frameOf (block : List TableRecord) :
    (frameOf crc32 block).length = (encodeRecords block).length + 8 := by
  simp only [frameOf, blockFrame, length_append, length_writeU32LE]
  omega

theorem readBlock_frameOf (small : (encodeRecords block).length < 2 ^ 32) :
    readBlock.Reads (frameOf crc32 block)
      (encodeRecords block, crc32Bytes crc32 (encodeRecords block)) := by
  have stored : (encodeRecords block).length =
      (UInt32.ofNat (encodeRecords block).length).toNat := (Nat.mod_eq_of_lt small).symm
  exact (readU32LE_reads _).bind ((readU32LE_reads _).bind
    ((Reader.Reads.take stored).bind_pure fun payload => (payload, _)))

theorem locates_written {before after : Bytes}
    (addressable : file.length < 2 ^ 64) (small : (encodeRecords block).length + 8 < 2 ^ 32)
    (same : file = before ++ (frameOf crc32 block ++ after)) :
    Locates crc32 file
      { firstKey := headKey block
        offset := .ofNat before.length
        bytes := .ofNat (frameOf crc32 block).length } block := by
  have size := length_frameOf crc32 block
  have total : file.length =
      before.length + ((encodeRecords block).length + 8 + after.length) := by
    rw [same, length_append, length_append, size]
  have bytes : (UInt32.ofNat (frameOf crc32 block).length).toNat =
      (encodeRecords block).length + 8 := by
    rw [UInt32.toNat_ofNat', size, Nat.mod_eq_of_lt small]
  have offset : (UInt64.ofNat before.length).toNat = before.length :=
    Nat.mod_eq_of_lt (by omega)
  have last : (UInt64.ofNat before.length +
      (UInt32.ofNat (frameOf crc32 block).length).toUInt64).toNat =
      before.length + ((encodeRecords block).length + 8) := by
    rw [UInt64.toNat_add, offset, UInt32.toNat_toUInt64, bytes, Nat.mod_eq_of_lt (by omega)]
  have frame : (file.drop before.length).take ((encodeRecords block).length + 8) =
      frameOf crc32 block := by
    rw [same, drop_left, ← size, take_left]
  have read := readBlock_frameOf crc32 (show (encodeRecords block).length < 2 ^ 32 by omega) []
  rw [append_nil] at read
  refine ⟨rfl, ?_⟩
  rw [locateBlockPayload, last, if_neg (by omega), offset, bytes, frame, read]
  rfl

theorem locates_all {after : Bytes} (blocks : List (List TableRecord)) (before : Bytes)
    (addressable : file.length < 2 ^ 64)
    (small : ∀ block ∈ blocks, (encodeRecords block).length + 8 < 2 ^ 32)
    (same : file = before ++ (blocks.flatMap (frameOf crc32) ++ after)) :
    List.Forall₂ (Locates crc32 file) (indexFrom crc32 before.length blocks) blocks := by
  induction blocks generalizing before with
  | nil => exact .nil
  | cons block blocks ih =>
    rw [flatMap_cons, append_assoc] at same
    refine .cons (locates_written crc32 addressable (small block (by simp)) same) ?_
    rw [← length_append]
    exact ih (before ++ frameOf crc32 block) (fun other member => small other (by simp [member]))
      (by rw [same, append_assoc])

theorem length_le_encodeRecords (records : List TableRecord) :
    records.length ≤ (encodeRecords records).length := by
  apply length_le_flatMap
  intro record
  have size := recordBytes_eq record
  rw [recordBytes] at size
  omega

theorem decodeBlock_of_locates
    (locates : Locates crc32 file entry block) (fits : ∀ record ∈ block, Fits record) :
    decodeBlock file entry = some block := by
  rw [decodeBlock, locates.2]
  exact decodeRecords_encodeRecords fits (length_le_encodeRecords block)

theorem iterateFrom_of_locates (locates : List.Forall₂ (Locates crc32 file) entries blocks)
    (fits : ∀ record ∈ blocks.flatten, Fits record) :
    TableHandle.iterateFrom file entries = some blocks.flatten := by
  induction locates with
  | nil => rfl
  | @cons entry block entries blocks one rest ih =>
    rw [flatten_cons] at fits
    have here := decodeBlock_of_locates crc32 one fun record member =>
      fits record (mem_append_left _ member)
    have later := ih fun record member => fits record (mem_append_right _ member)
    rw [TableHandle.iterateFrom, here, later]
    rfl

theorem validateBlocks_of_locates (locates : List.Forall₂ (Locates crc32 file) entries blocks)
    (filled : ∀ block ∈ blocks, block ≠ []) : validateBlocks crc32 file entries = .ok () := by
  induction locates with
  | nil => rfl
  | @cons entry block entries blocks one rest ih =>
    have nonempty : ¬(encodeRecords block).isEmpty = true := by
      rw [List.isEmpty_iff, ← length_eq_zero_iff]
      exact mt length_encodeRecords_eq_zero.mp (filled block (by simp))
    have later := ih fun other member => filled other (by simp [member])
    rw [validateBlocks, one.2]
    simp only [crc32Bytes, if_neg nonempty, ne_eq, not_true_eq_false, if_false, later]

theorem readIndexEntry_reads (small : entry.firstKey.length < 2 ^ 32) :
    readIndexEntry.Reads (writeIndexEntry entry) entry := by
  refine (readBytes_reads small).bind ((readU64LE_reads entry.offset).bind ?_)
  exact (readU32LE_reads entry.bytes).bind_pure fun bytes => { entry with bytes }

theorem parseSparseIndex_sparseIndex (small : ∀ entry ∈ entries, entry.firstKey.length < 2 ^ 32) :
    parseSparseIndex (sparseIndex entries) = .ok (entries.take (entries.length % 2 ^ 32)) := by
  have count := readU32LE_reads (.ofNat entries.length) (entries.flatMap writeIndexEntry)
  have number : (UInt32.ofNat entries.length).toNat =
      (entries.take (entries.length % 2 ^ 32)).length := by
    rw [length_take, UInt32.toNat_ofNat']
    omega
  have read := @Reader.Reads.times _ _ readIndexEntry writeIndexEntry
    (entries.take (entries.length % 2 ^ 32))
    (fun entry member => readIndexEntry_reads (small entry (mem_of_mem_take member)))
    ((entries.drop (entries.length % 2 ^ 32)).flatMap writeIndexEntry)
  rw [← flatMap_append, take_append_drop, ← number] at read
  rw [parseSparseIndex, sparseIndex, writeList, count]
  simp only [read]

theorem parseBloom_bloomPayload (bloom : BloomFilter) :
    parseBloom (bloomPayload bloom) =
      .ok { bloom with bytes := bloom.bytes.take (bloom.bytes.length % 2 ^ 32) } := by
  have hashCount := readU32LE_reads bloom.hashCount (writeBytes bloom.bytes)
  have size := readU32LE_reads (.ofNat bloom.bytes.length) bloom.bytes
  have within : (UInt32.ofNat bloom.bytes.length).toNat ≤ bloom.bytes.length := by
    rw [UInt32.toNat_ofNat']
    omega
  rw [parseBloom, bloomPayload, readBloom, Reader.bind_apply, hashCount, Option.bind_some,
    Reader.bind_apply, readBytes, Reader.bind_apply, writeBytes, size, Option.bind_some,
    Reader.take, if_pos within, UInt32.toNat_ofNat']
  rfl

end SwStack.EmbeddedDb.TableFile
