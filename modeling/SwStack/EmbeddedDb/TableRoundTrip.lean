import SwStack.EmbeddedDb.TableSearch

/-! A table file reopened: when the records that were written are those that are read. -/
namespace SwStack.EmbeddedDb.TableFile

open SwStack.Lib List

variable (crc32 : Bytes → UInt32)

def tableBlocks (records : List TableRecord) : List (List TableRecord) := splitBlocks [] records

def tableBloom (records : List TableRecord) : BloomFilter :=
  records.foldl (fun bloom record => bloom.add record.userKey) (.initialized records.length)

def tableBody (tableMeta : TableMeta) (records : List TableRecord) : Bytes :=
  tableHeader tableMeta ++ (tableBlocks records).flatMap (frameOf crc32)

def tableIndex (tableMeta : TableMeta) (records : List TableRecord) : List BlockIndexEntry :=
  indexFrom crc32 (tableHeader tableMeta).length (tableBlocks records)

def tableTail (tableMeta : TableMeta) (records : List TableRecord) : Bytes :=
  let sparse := sparseIndex (tableIndex crc32 tableMeta records)
  let sparseOffset := (tableBody crc32 tableMeta records).length
  sparse ++ (bloomPayload (tableBloom records) ++
    tableFooter tableMeta (.ofNat sparseOffset) (.ofNat (sparseOffset + sparse.length)))

def tableFile (tableMeta : TableMeta) (records : List TableRecord) : Bytes :=
  tableBody crc32 tableMeta records ++ tableTail crc32 tableMeta records

variable {records : List TableRecord}

theorem writeTableFile_eq (tableMeta : TableMeta) (nonempty : records ≠ []) :
    writeTableFile crc32 tableMeta records = .some (tableFile crc32 tableMeta records) := by
  obtain ⟨file, blocks, bloom⟩ := @written_blocks crc32
    { file := tableHeader tableMeta
      blocks := []
      bloom := .initialized records.length
      blockPayload := []
      firstKey := [] } [] records ⟨rfl, fun never => absurd rfl never⟩
  rw [writeTableFile, if_neg (by simpa using nonempty)]
  dsimp only
  rw [file, blocks, bloom]
  rfl

theorem length_tableFooter (tableMeta : TableMeta) (sparseOffset bloomOffset : UInt64) :
    (tableFooter tableMeta sparseOffset bloomOffset).length = kFooterBytes := by
  simp only [tableFooter, length_append, length_writeU64LE, length_writeU32LE]
  rfl

theorem readHeader_tableHeader (tableMeta : TableMeta) (rest : Bytes) :
    ∃ indexName left, readHeader ((tableHeader tableMeta ++ rest).drop 8) =
      some ({
        kind := tableMeta.kind
        minSequence := tableMeta.minSequence
        maxSequence := tableMeta.maxSequence
        recordCount := tableMeta.recordCount
        indexName }, left) := by
  have within : (UInt32.ofNat tableMeta.indexName.length).toNat ≤
      (tableMeta.indexName ++ rest).length := by
    rw [UInt32.toNat_ofNat', length_append]
    omega
  have behind : (tableHeader tableMeta ++ rest).drop 8 =
      writeU32LE 1 ++ (writeU32LE tableMeta.kind ++ (writeU64LE tableMeta.minSequence ++
        (writeU64LE tableMeta.maxSequence ++ (writeU64LE tableMeta.recordCount ++
          (writeU32LE (.ofNat tableMeta.indexName.length) ++
            (writeU32LE kBlockSize ++ (tableMeta.indexName ++ rest))))))) := by
    simp only [tableHeader, append_assoc]
    rfl
  refine ⟨(tableMeta.indexName ++ rest).take (UInt32.ofNat tableMeta.indexName.length).toNat,
    (tableMeta.indexName ++ rest).drop (UInt32.ofNat tableMeta.indexName.length).toNat, ?_⟩
  rw [behind, readHeader]
  simp only [Reader.bind_apply, readU32LE_reads _ _, readU64LE_reads _ _, Option.bind_some, ne_eq,
    not_true_eq_false, if_false, Reader.take, if_pos within]
  rfl

theorem readFooter_tableFooter (tableMeta : TableMeta) (sparseOffset bloomOffset : UInt64) :
    readFooter ((tableFooter tableMeta sparseOffset bloomOffset).drop 8) =
      some ({
        sparseOffset
        bloomOffset
        maxSequence := tableMeta.maxSequence
        recordCount := tableMeta.recordCount
        kind := tableMeta.kind }, []) := by
  have behind : (tableFooter tableMeta sparseOffset bloomOffset).drop 8 =
      writeU64LE sparseOffset ++ (writeU64LE bloomOffset ++ (writeU64LE tableMeta.maxSequence ++
        (writeU64LE tableMeta.recordCount ++ (writeU32LE tableMeta.kind ++ [])))) := by
    rw [append_nil]
    rfl
  rw [behind, readFooter]
  simp only [Reader.bind_apply, readU32LE_reads _ _, readU64LE_reads _ _, Option.bind_some]
  rfl

theorem parse_tableFile (tableMeta : TableMeta) (records : List TableRecord)
    (addressable : (tableFile crc32 tableMeta records).length < 2 ^ 64) :
    ∃ indexName, parse crc32 (tableFile crc32 tableMeta records) = (do
      let blocks ← parseSparseIndex (sparseIndex (tableIndex crc32 tableMeta records))
      let bloom ← parseBloom (bloomPayload (tableBloom records))
      validateBlocks crc32 (tableFile crc32 tableMeta records) blocks
      let (minUserKey, maxUserKey) ←
        resolveKeyRange (tableFile crc32 tableMeta records) blocks
      .ok {
        file := tableFile crc32 tableMeta records
        blocks
        bloom
        kind := tableMeta.kind
        minSequence := tableMeta.minSequence
        maxSequence := tableMeta.maxSequence
        recordCount := tableMeta.recordCount
        indexName
        minUserKey
        maxUserKey }) := by
  have split : tableFile crc32 tableMeta records = tableBody crc32 tableMeta records ++
      (sparseIndex (tableIndex crc32 tableMeta records) ++
        (bloomPayload (tableBloom records) ++ tableFooter tableMeta
          (.ofNat (tableBody crc32 tableMeta records).length)
          (.ofNat ((tableBody crc32 tableMeta records).length +
            (sparseIndex (tableIndex crc32 tableMeta records)).length)))) := rfl
  obtain ⟨indexName, left, header⟩ := readHeader_tableHeader tableMeta
    ((tableBlocks records).flatMap (frameOf crc32) ++ tableTail crc32 tableMeta records)
  have headed : tableFile crc32 tableMeta records = tableHeader tableMeta ++
      ((tableBlocks records).flatMap (frameOf crc32) ++ tableTail crc32 tableMeta records) :=
    append_assoc _ _ _
  rw [← headed] at header
  have magic : (tableFile crc32 tableMeta records).take 8 = kTableMagic := by
    rw [headed]
    rfl
  generalize tableFile crc32 tableMeta records = file at *
  generalize sparseIndex (tableIndex crc32 tableMeta records) = sparse at *
  generalize tableBody crc32 tableMeta records = body at *
  generalize bloomPayload (tableBloom records) = bloom at *
  have footerLength := length_tableFooter tableMeta (.ofNat body.length)
    (.ofNat (body.length + sparse.length))
  have footerParsed := readFooter_tableFooter tableMeta (.ofNat body.length)
    (.ofNat (body.length + sparse.length))
  have footerMagic : (tableFooter tableMeta (.ofNat body.length)
    (.ofNat (body.length + sparse.length))).take 8 = kFooterMagic := rfl
  generalize tableFooter tableMeta (.ofNat body.length)
    (.ofNat (body.length + sparse.length)) = footer at *
  have length : file.length = body.length + (sparse.length + (bloom.length + kFooterBytes)) := by
    rw [split, length_append, length_append, length_append, footerLength]
  have bodyOffset : (UInt64.ofNat body.length).toNat = body.length := Nat.mod_eq_of_lt (by omega)
  have bloomOffset : (UInt64.ofNat (body.length + sparse.length)).toNat =
      body.length + sparse.length := Nat.mod_eq_of_lt (by omega)
  have atFooter : file.drop (file.length - kFooterBytes) = footer := by
    have before : file.length - kFooterBytes = (body ++ (sparse ++ bloom)).length := by
      rw [length_append, length_append]
      omega
    have joined : file = (body ++ (sparse ++ bloom)) ++ footer := by
      rw [split, append_assoc, append_assoc]
    rw [before, joined, drop_left]
  have atIndex : between file body.length (body.length + sparse.length) = sparse := by
    have joined : file = (body ++ sparse) ++ (bloom ++ footer) := by
      rw [split, append_assoc]
    rw [between, ← length_append, joined, take_left, drop_left]
  have atBloom : between file (body.length + sparse.length) (file.length - kFooterBytes) = bloom := by
    have before : file.length - kFooterBytes = (body ++ sparse ++ bloom).length := by
      rw [length_append, length_append]
      omega
    have joined : file = (body ++ sparse ++ bloom) ++ footer := by
      rw [split, append_assoc, append_assoc]
    rw [between, before, joined, take_left, ← length_append, drop_left]
  refine ⟨indexName, ?_⟩
  rw [parse, if_neg (by omega), if_neg (not_not.mpr magic), header]
  dsimp only
  rw [atFooter, if_neg (not_not.mpr footerMagic), footerParsed]
  dsimp only
  rw [if_neg (by simp), bodyOffset, bloomOffset, atIndex, atBloom]

theorem flatten_tableBlocks (records : List TableRecord) :
    (tableBlocks records).flatten = records := by
  rw [tableBlocks, flatten_splitBlocks, nil_append]

theorem filled_tableBlocks (records : List TableRecord) :
    ∀ block ∈ tableBlocks records, block ≠ [] :=
  fun _ member => ne_nil_of_mem_splitBlocks member

theorem sizes_tableBlocks (records : List TableRecord) :
    (tableBlocks records).map (fun block => (encodeRecords block).length) =
      blockSizes 0 (records.map recordBytes) :=
  map_length_splitBlocks [] records

theorem length_indexFrom (offset : Nat) (blocks : List (List TableRecord)) :
    (indexFrom crc32 offset blocks).length = blocks.length := by
  induction blocks generalizing offset with
  | nil => rfl
  | cons block blocks ih => rw [indexFrom, length_cons, ih, length_cons]

variable {blocks : List (List TableRecord)}

theorem firstKey_indexFrom (member : entry ∈ indexFrom crc32 offset blocks) :
    ∃ block ∈ blocks, entry.firstKey = headKey block := by
  induction blocks generalizing offset with
  | nil => cases member
  | cons block blocks ih =>
    cases mem_cons.mp member with
    | inl same => exact ⟨block, by simp, by rw [same]⟩
    | inr later =>
      obtain ⟨other, inside, same⟩ := ih later
      exact ⟨other, mem_cons_of_mem _ inside, same⟩

theorem small_indexFrom {offset : Nat}
    (filled : ∀ block ∈ blocks, block ≠ []) (fits : ∀ record ∈ blocks.flatten, Fits record) :
    ∀ entry ∈ indexFrom crc32 offset blocks, entry.firstKey.length < 2 ^ 32 := by
  intro entry member
  obtain ⟨block, inside, same⟩ := firstKey_indexFrom crc32 member
  obtain ⟨record, here, key⟩ := headKey_mem (filled block inside)
  rw [same, ← key]
  exact (fits record (mem_flatten.mpr ⟨block, inside, here⟩)).1

/-- What an entry says of a block's size, its frame apart. -/
def cutSize (size : Nat) : Nat := (size + 8) % 2 ^ 32 - 8

theorem sizes_indexFrom (offset : Nat) (blocks : List (List TableRecord)) :
    (indexFrom crc32 offset blocks).map (fun entry => entry.bytes.toNat - 8) =
      (blocks.map fun block => (encodeRecords block).length).map cutSize := by
  induction blocks generalizing offset with
  | nil => rfl
  | cons block blocks ih =>
    rw [indexFrom, map_cons, ih, map_cons, map_cons, UInt32.toNat_ofNat',
      length_frameOf, cutSize]

theorem sum_cutSize_le (sizes : List Nat) : (sizes.map cutSize).sum ≤ sizes.sum := by
  induction sizes with
  | nil => exact Nat.le_refl _
  | cons size sizes ih =>
    have cut : cutSize size ≤ size := by
      rw [cutSize]
      omega
    rw [map_cons, sum_cons, sum_cons]
    omega

/-- Nothing is lost of sizes only when all of them are there, and none is cut. -/
theorem whole_of_sum_le {sizes : List Nat} (positive : ∀ size ∈ sizes, 0 < size) {count : Nat}
    (few : count ≤ sizes.length) (enough : sizes.sum ≤ ((sizes.take count).map cutSize).sum) :
    count = sizes.length ∧ ∀ size ∈ sizes, size + 8 < 2 ^ 32 := by
  induction sizes generalizing count with
  | nil => simpa using few
  | cons size sizes ih =>
    have nonempty := positive size (by simp)
    cases count with
    | zero =>
      rw [take_zero, map_nil, sum_nil, sum_cons] at enough
      omega
    | succ count =>
      rw [take_succ_cons, map_cons, sum_cons, sum_cons] at enough
      have later := sum_cutSize_le (sizes.take count)
      have part := (take_sublist count sizes).sum_le_sum fun _ _ => Nat.zero_le _
      have cut : cutSize size ≤ size := by
        rw [cutSize]
        omega
      have whole : size ≤ cutSize size := by omega
      obtain ⟨same, small⟩ := ih (fun other member => positive other (by simp [member]))
        (Nat.le_of_succ_le_succ few) (by omega)
      refine ⟨by rw [same, length_cons], forall_mem_cons.mpr ⟨?_, small⟩⟩
      rw [cutSize] at whole
      omega

theorem le_of_getLast (sorted : Sorted records) {last : TableRecord}
    (ends : records.getLast? = some last) : ∀ record ∈ records, record.userKey ≤ last.userKey := by
  obtain ⟨before, rfl⟩ := List.getLast?_eq_some_iff.mp ends
  intro record member
  cases mem_append.mp member with
  | inl earlier =>
    exact ((pairwise_append.mp sorted).2.2 record earlier last (by simp)).le
  | inr same => exact (mem_singleton.mp same) ▸ le_rfl

variable {file : Bytes} {entries : List BlockIndexEntry}

theorem locates_getLast {crc32 : Bytes → UInt32}
    (locates : List.Forall₂ (Locates crc32 file) entries blocks) (nonempty : blocks ≠ []) :
    ∃ entry block, entries.getLast? = .some entry ∧ blocks.getLast? = .some block ∧
      Locates crc32 file entry block := by
  induction locates with
  | nil => exact absurd rfl nonempty
  | @cons entry block entries blocks located rest ih =>
    cases rest with
    | nil => exact ⟨entry, block, rfl, rfl, located⟩
    | cons second more =>
      obtain ⟨lastEntry, lastBlock, entryEnds, blockEnds, located⟩ := ih (cons_ne_nil _ _)
      exact ⟨lastEntry, lastBlock, by rw [getLast?_cons_cons, entryEnds],
        by rw [getLast?_cons_cons, blockEnds], located⟩

theorem firstKey_of_locates {crc32 : Bytes → UInt32}
    (locates : List.Forall₂ (Locates crc32 file) entries blocks)
    (filled : ∀ block ∈ blocks, block ≠ []) {entry : BlockIndexEntry}
    (starts : entries.head? = some entry) : entry.firstKey = headKey blocks.flatten := by
  cases locates with
  | nil => cases starts
  | @cons first block _ _ located _ =>
    obtain rfl : first = entry := Option.some_inj.mp starts
    cases block with
    | nil => exact absurd rfl (filled [] (by simp))
    | cons record records => exact located.1

theorem resolveKeyRange_of_locates {crc32 : Bytes → UInt32}
    (locates : List.Forall₂ (Locates crc32 file) entries blocks) (nonempty : blocks ≠ [])
    (filled : ∀ block ∈ blocks, block ≠ []) (fits : ∀ record ∈ blocks.flatten, Fits record)
    (sorted : Sorted blocks.flatten) :
    ∃ least greatest, resolveKeyRange file entries = .ok (least, greatest) ∧
      (∀ record ∈ blocks.flatten, least ≤ record.userKey) ∧
        ∀ record ∈ blocks.flatten, record.userKey ≤ greatest := by
  obtain ⟨lastEntry, lastBlock, entryEnds, blockEnds, located⟩ := locates_getLast locates nonempty
  obtain ⟨before, rfl⟩ := List.getLast?_eq_some_iff.mp blockEnds
  have lastFits : ∀ record ∈ lastBlock, Fits record := fun record member =>
    fits record (mem_flatten.mpr ⟨lastBlock, by simp, member⟩)
  obtain ⟨last, ends⟩ : ∃ last, lastBlock.getLast? = .some last :=
    Option.isSome_iff_exists.mp (by simpa using filled lastBlock (by simp))
  have flatEnds : (before ++ [lastBlock]).flatten.getLast? = .some last := by
    rw [flatten_append, getLast?_append, flatten_singleton, ends]
    rfl
  obtain ⟨firstEntry, starts⟩ : ∃ firstEntry, entries.head? = .some firstEntry := by
    apply Option.isSome_iff_exists.mp
    rw [isSome_head?]
    rintro rfl
    cases entryEnds
  have least : ∀ record ∈ (before ++ [lastBlock]).flatten,
      firstEntry.firstKey ≤ record.userKey := by
    rw [firstKey_of_locates locates filled starts]
    exact headKey_le sorted
  refine ⟨firstEntry.firstKey, last.userKey, ?_, least, le_of_getLast sorted flatEnds⟩
  rw [resolveKeyRange, starts, entryEnds]
  dsimp only
  rw [decodeBlock_of_locates crc32 located lastFits]
  dsimp only
  rw [ends]
  rfl

def filterBytes (count : Nat) : Nat := (max 256 (count * 10) + 7) / 8

/-- The filter as far as the size that is stored of it says. -/
def storedBloom (records : List TableRecord) : BloomFilter :=
  { tableBloom records with
    bytes := (tableBloom records).bytes.take ((tableBloom records).bytes.length % 2 ^ 32) }

/-- Records whose sizes fit the numbers that the file keeps of them. Blocks are those that the
writer's limit makes of the records' sizes. -/
structure Storable (records : List TableRecord) : Prop where
  fits : ∀ record ∈ records, Fits record
  blocks : ∀ size ∈ blockSizes 0 (records.map recordBytes), size + 8 < 2 ^ 32
  count : (blockSizes 0 (records.map recordBytes)).length ≤ 2 ^ 31
  filter : filterBytes records.length < 2 ^ 32 ∨
    ∀ record ∈ records, (storedBloom records).mayContain record.userKey = true

/-- The file of these records opens as a table that has exactly them, and finds each of them. -/
def ReadsBack (tableMeta : TableMeta) (records : List TableRecord) : Prop :=
  ∃ file handle, writeTableFile crc32 tableMeta records = some file ∧
    parse crc32 file = .ok handle ∧ handle.iterateAll = some records ∧
      ∀ key, handle.findRecord key = lookup key records

theorem tableBloom_spec (records : List TableRecord) :
    (tableBloom records).bytes.length = filterBytes records.length ∧
      ∀ record ∈ records, (tableBloom records).mayContain record.userKey = true := by
  have length : (BloomFilter.initialized records.length).bytes.length =
      filterBytes records.length := length_replicate
  have nonempty : (BloomFilter.initialized records.length).bytes ≠ [] := by
    rw [← length_pos_iff, length, filterBytes]
    omega
  obtain ⟨kept, _, contains⟩ := BloomFilter.foldl_add_spec records nonempty
  exact ⟨kept.trans length, contains⟩

theorem Storable.mayContain (storable : Storable records) :
    ∀ record ∈ records, (storedBloom records).mayContain record.userKey = true := by
  cases storable.filter with
  | inl small =>
    obtain ⟨length, contains⟩ := tableBloom_spec records
    have whole : storedBloom records = tableBloom records := by
      rw [storedBloom, length, Nat.mod_eq_of_lt small, ← length, List.take_length]
    rw [whole]
    exact contains
  | inr contains => exact contains

theorem lookup_mem (sorted : Sorted records) {record : TableRecord}
    (member : record ∈ records) : lookup record.userKey records = some record := by
  obtain ⟨before, after, rfl⟩ := append_of_mem member
  have earlier : lookup record.userKey before = none := lookup_eq_none fun other inside =>
    ((pairwise_append.mp sorted).2.2 other inside record (by simp)).ne
  rw [lookup, find?_append, ← lookup, earlier, Option.none_or,
    find?_cons_of_pos (by simp)]

theorem Storable.count_lt (storable : Storable records) :
    (tableBlocks records).length ≤ 2 ^ 31 := by
  have count := storable.count
  rwa [← sizes_tableBlocks, length_map] at count

theorem locates_tableFile (tableMeta : TableMeta)
    (addressable : (tableFile crc32 tableMeta records).length < 2 ^ 64)
    (small : ∀ size ∈ blockSizes 0 (records.map recordBytes), size + 8 < 2 ^ 32) :
    List.Forall₂ (Locates crc32 (tableFile crc32 tableMeta records))
      (tableIndex crc32 tableMeta records) (tableBlocks records) := by
  rw [← sizes_tableBlocks] at small
  apply locates_all crc32 (tableBlocks records) (tableHeader tableMeta) addressable
  · exact fun block member => small _ (mem_map_of_mem member)
  · exact append_assoc _ _ _

theorem readsBack_of_storable (tableMeta : TableMeta)
    (nonempty : records ≠ []) (sorted : Sorted records)
    (addressable : (tableFile crc32 tableMeta records).length < 2 ^ 64)
    (storable : Storable records) : ReadsBack crc32 tableMeta records := by
  have flat := flatten_tableBlocks records
  have filled := filled_tableBlocks records
  have locates := locates_tableFile crc32 tableMeta addressable storable.blocks
  have fits : ∀ record ∈ (tableBlocks records).flatten, Fits record := by
    rw [flat]
    exact storable.fits
  have flatSorted : Sorted (tableBlocks records).flatten := by rwa [flat]
  have blocksSome : tableBlocks records ≠ [] := by
    intro empty
    rw [empty] at flat
    exact nonempty flat.symm
  have few := storable.count_lt
  have entryCount : (tableIndex crc32 tableMeta records).length = (tableBlocks records).length :=
    length_indexFrom crc32 _ _
  have index : parseSparseIndex (sparseIndex (tableIndex crc32 tableMeta records)) =
      .ok (tableIndex crc32 tableMeta records) := by
    have smallKeys : ∀ entry ∈ tableIndex crc32 tableMeta records,
      entry.firstKey.length < 2 ^ 32 := small_indexFrom crc32 filled fits
    rw [parseSparseIndex_sparseIndex smallKeys, Nat.mod_eq_of_lt (by omega), List.take_length]
  obtain ⟨least, greatest, range, below, above⟩ :=
    resolveKeyRange_of_locates locates blocksSome filled fits flatSorted
  obtain ⟨indexName, parsed⟩ := parse_tableFile crc32 tableMeta records addressable
  rw [index, parseBloom_bloomPayload] at parsed
  change parse crc32 _ = (validateBlocks crc32 _ _).bind _ at parsed
  rw [validateBlocks_of_locates crc32 locates filled] at parsed
  change parse crc32 _ = (resolveKeyRange _ _).bind _ at parsed
  rw [range] at parsed
  refine ⟨_, _, writeTableFile_eq crc32 tableMeta nonempty, parsed, ?_, fun key => ?_⟩
  · have iterated := iterateFrom_of_locates crc32 locates fits
    rwa [flat] at iterated
  · let handle : TableHandle :=
      { file := tableFile crc32 tableMeta records
        blocks := tableIndex crc32 tableMeta records
        bloom := storedBloom records
        kind := tableMeta.kind
        minSequence := tableMeta.minSequence
        maxSequence := tableMeta.maxSequence
        recordCount := tableMeta.recordCount
        indexName
        minUserKey := least
        maxUserKey := greatest }
    have found := @findRecord_of_opened _ handle _
      ⟨locates, filled, blocksSome, fits, flatSorted, below, fun _ => above⟩ few key
    rw [flat] at found
    refine found.trans ?_
    by_cases contains : (storedBloom records).mayContain key = true
    · rw [if_pos contains]
    · rw [if_neg contains, lookup_eq_none]
      rintro record member rfl
      exact contains (storable.mayContain record member)

theorem bind_ok {ε α β : Type} {first : Except ε α} {next : α → Except ε β} {result : β}
    (ran : first >>= next = .ok result) : ∃ value, first = .ok value ∧ next value = .ok result := by
  cases first with
  | error error => cases ran
  | ok value => exact ⟨value, rfl, ran⟩

variable {tableMeta : TableMeta}

theorem parsed_tableFile
    (addressable : (tableFile crc32 tableMeta records).length < 2 ^ 64) {handle : TableHandle}
    (parsed : parse crc32 (tableFile crc32 tableMeta records) = .ok handle) :
    handle.file = tableFile crc32 tableMeta records ∧
      parseSparseIndex (sparseIndex (tableIndex crc32 tableMeta records)) = .ok handle.blocks ∧
        handle.bloom = storedBloom records := by
  obtain ⟨indexName, whole⟩ := parse_tableFile crc32 tableMeta records addressable
  rw [whole] at parsed
  obtain ⟨blocks, index, parsed⟩ := bind_ok parsed
  obtain ⟨bloom, filter, parsed⟩ := bind_ok parsed
  obtain ⟨_, _, parsed⟩ := bind_ok parsed
  obtain ⟨_, _, parsed⟩ := bind_ok parsed
  rw [parseBloom_bloomPayload] at filter
  cases filter
  cases parsed
  exact ⟨rfl, index, rfl⟩

theorem fits_of_readsBack
    (readsBack : ReadsBack crc32 tableMeta records) : ∀ record ∈ records, Fits record := by
  obtain ⟨file, handle, _, _, iterated, _⟩ := readsBack
  exact (length_of_iterateFrom iterated).1

theorem storable_of_readsBack (nonempty : records ≠ []) (sorted : Sorted records)
    (addressable : (tableFile crc32 tableMeta records).length < 2 ^ 64)
    (readsBack : ReadsBack crc32 tableMeta records) : Storable records := by
  have fits := fits_of_readsBack crc32 readsBack
  obtain ⟨file, handle, written, parsed, iterated, found⟩ := readsBack
  rw [writeTableFile_eq crc32 tableMeta nonempty, Option.some_inj] at written
  subst written
  obtain ⟨fileSame, index, bloom⟩ := parsed_tableFile crc32 addressable parsed
  have flat := flatten_tableBlocks records
  have filled := filled_tableBlocks records
  have flatSorted : Sorted (tableBlocks records).flatten := by rwa [flat]
  have smallKeys : ∀ entry ∈ tableIndex crc32 tableMeta records,
      entry.firstKey.length < 2 ^ 32 := small_indexFrom crc32 filled (by rwa [flat])
  have entryCount : (tableIndex crc32 tableMeta records).length = (tableBlocks records).length :=
    length_indexFrom crc32 _ _
  have sizeCount : (blockSizes 0 (records.map recordBytes)).length =
      (tableBlocks records).length := by
    rw [← sizes_tableBlocks, length_map]
  rw [parseSparseIndex_sparseIndex smallKeys] at index
  have blocksRead := (Except.ok.inj index).symm
  -- Nothing is missing from the blocks that are read, so all of them are, and none is cut.
  have total : (blockSizes 0 (records.map recordBytes)).sum = (records.map recordBytes).sum := by
    rw [← sizes_tableBlocks]
    have sums : ∀ blocks : List (List TableRecord),
        (blocks.map fun block => (encodeRecords block).length).sum =
          (encodeRecords blocks.flatten).length := by
      intro blocks
      induction blocks with
      | nil => rfl
      | cons block blocks ih =>
        rw [map_cons, sum_cons, ih, flatten_cons, encodeRecords, encodeRecords,
          encodeRecords, flatMap_append, length_append]
    rw [sums, flat, length_encodeRecords]
  have enough := (length_of_iterateFrom iterated).2
  rw [blocksRead, entryCount, ← total, map_take, tableIndex, sizes_indexFrom,
    sizes_tableBlocks, ← map_take] at enough
  have positive : ∀ size ∈ blockSizes 0 (records.map recordBytes), 0 < size := by
    rw [← sizes_tableBlocks]
    intro size member
    obtain ⟨block, inside, rfl⟩ := mem_map.mp member
    exact Nat.pos_of_ne_zero (mt length_encodeRecords_eq_zero.mp (filled block inside))
  obtain ⟨whole, small⟩ := whole_of_sum_le positive (by rw [sizeCount]; omega) enough
  rw [sizeCount] at whole
  have numbered : (tableBlocks records).length < 2 ^ 32 := by omega
  have blocksSame : handle.blocks = tableIndex crc32 tableMeta records := by
    rw [blocksRead, entryCount, whole, ← entryCount, List.take_length]
  have locates := locates_tableFile crc32 tableMeta addressable small
  rw [← fileSame, ← blocksSame] at locates
  refine ⟨fits, small, ?_, .inr ?_⟩
  · rw [sizeCount]
    by_contra many
    have inside : 2 ^ 31 < (tableBlocks records).length := Nat.not_le.mp many
    have far := findRecord_of_far locates filled flatSorted le_rfl (by omega)
      (getElem?_eq_getElem inside)
    obtain ⟨first, member, key⟩ := headKey_mem (filled _ (getElem_mem inside))
    have there : first ∈ records := by
      rw [← flat]
      exact mem_flatten.mpr ⟨_, getElem_mem inside, member⟩
    rw [found, ← key, lookup_mem sorted there] at far
    cases far
  · intro record member
    have looked := found record.userKey
    rw [lookup_mem sorted member, TableHandle.findRecord] at looked
    by_contra missing
    rw [← bloom] at missing
    rw [if_pos (.inr (.inl (by simpa using missing)))] at looked
    cases looked

/-- A table file is read back, record for record and key for key, exactly when the sizes in it fit
the numbers that are kept of them. -/
theorem readsBack_iff (tableMeta : TableMeta) (records : List TableRecord) (nonempty : records ≠ [])
    (sorted : Sorted records)
    (addressable : ∀ file, writeTableFile crc32 tableMeta records = .some file →
      file.length < 2 ^ 64) :
    ReadsBack crc32 tableMeta records ↔ Storable records := by
  have fileSmall := addressable _ (writeTableFile_eq crc32 tableMeta nonempty)
  exact ⟨storable_of_readsBack crc32 nonempty sorted fileSmall,
    readsBack_of_storable crc32 tableMeta nonempty sorted fileSmall⟩

/-- A table of one record with an empty key. -/
def oneMeta : TableMeta :=
  { kind := 1, minSequence := 1, maxSequence := 1, recordCount := 1, indexName := [] }

def oneRecord (size : Nat) : TableRecord :=
  { userKey := [], sequence := 1, flags := 0, payload := List.replicate size 0 }

/-- Three records, of which the second is deleted. -/
def threeRecords : List TableRecord :=
  [oneRecord 3, { userKey := [7], sequence := 3, flags := 1, payload := [] },
    { userKey := [7, 0], sequence := 2, flags := 0, payload := [9] }]

theorem readsBack_iff_threeRecords :
    ReadsBack mzCrc32 { oneMeta with maxSequence := 3, recordCount := 3 } threeRecords ↔
      Storable threeRecords := by
  apply readsBack_iff mzCrc32 _ threeRecords (by decide) (by unfold Sorted; decide)
  intro file written
  have length : (writeTableFile mzCrc32 { oneMeta with maxSequence := 3, recordCount := 3 }
      threeRecords).map List.length = some 227 := by
    decide +kernel
  rw [written, Option.map_some, Option.some_inj] at length
  omega

theorem not_readsBack_of_large (large : 2 ^ 32 ≤ size) :
    ¬ReadsBack mzCrc32 oneMeta [oneRecord size] := by
  intro readsBack
  have fits := fits_of_readsBack mzCrc32 readsBack (oneRecord size) (by simp)
  have short : size < 2 ^ 32 := by simpa [oneRecord] using fits.2
  omega

theorem not_readsBack_oneRecord : ¬ReadsBack mzCrc32 oneMeta [oneRecord (2 ^ 32)] :=
  not_readsBack_of_large le_rfl

end SwStack.EmbeddedDb.TableFile
