import SwStack.EmbeddedDb.TableBlocks

/-! Looking a key up in a table: the filter, the block that a bisection of the index finds, and the
scan of that block. -/
namespace SwStack.EmbeddedDb.TableFile

open SwStack.Lib List

namespace BloomFilter

def hasBit (bytes : Bytes) (bit : Nat) : Bool := bytes.getD (bit / 8) 0 &&& bitMask bit != 0

theorem length_setBit (bytes : Bytes) (bit : Nat) : (setBit bytes bit).length = bytes.length :=
  length_modify _ _ _

theorem or_and_eq (value other mask : UInt8) :
    (value ||| other) &&& mask = (value &&& mask) ||| (other &&& mask) := by
  apply UInt8.toNat_inj.mp
  rw [UInt8.toNat_and, UInt8.toNat_or, UInt8.toNat_or, UInt8.toNat_and, UInt8.toNat_and]
  exact Nat.and_or_distrib_right _ _ _

theorem and_or_ne_zero {value mask other : UInt8} (set : value &&& mask ≠ 0) :
    (value ||| other) &&& mask ≠ 0 := by
  intro cleared
  apply set
  rw [or_and_eq] at cleared
  exact (UInt8.or_eq_zero_iff.mp cleared).1

theorem or_and_self_ne_zero {value mask : UInt8} (nonzero : mask ≠ 0) : (value ||| mask) &&& mask ≠ 0 := by
  intro cleared
  rw [or_and_eq, UInt8.and_self] at cleared
  exact nonzero (UInt8.or_eq_zero_iff.mp cleared).2

theorem bitMask_ne_zero (bit : Nat) : bitMask bit ≠ 0 := by
  have small := Nat.mod_lt bit (by decide : 8 > 0)
  rw [bitMask]
  generalize bit % 8 = place at small
  interval_cases place <;> decide

theorem hasBit_setBit_self {bytes : Bytes} {bit : Nat} (inside : bit / 8 < bytes.length) :
    hasBit (setBit bytes bit) bit = true := by
  rw [hasBit, setBit, bne_iff_ne, getD_eq_getElem?_getD, getElem?_modify,
    getElem?_eq_getElem inside]
  simp only [if_true]
  exact or_and_self_ne_zero (bitMask_ne_zero bit)

theorem hasBit_setBit {bytes : Bytes} {bit other : Nat} (set : hasBit bytes bit = true) :
    hasBit (setBit bytes other) bit = true := by
  rw [hasBit, bne_iff_ne, getD_eq_getElem?_getD] at set
  rw [hasBit, setBit, bne_iff_ne, getD_eq_getElem?_getD, getElem?_modify]
  cases found : bytes[bit / 8]? with
  | none => simp [found] at set
  | some value =>
    rw [found] at set
    by_cases same : other / 8 = bit / 8
    · simp only [if_pos same]
      exact and_or_ne_zero set
    · simp only [if_neg same]
      exact set

theorem foldl_setBit (bits : List Nat) (bytes : Bytes) :
    (bits.foldl setBit bytes).length = bytes.length ∧
      (∀ bit, hasBit bytes bit = true → hasBit (bits.foldl setBit bytes) bit = true) ∧
        ∀ bit ∈ bits, bit / 8 < bytes.length → hasBit (bits.foldl setBit bytes) bit = true := by
  induction bits generalizing bytes with
  | nil => simp
  | cons first bits ih =>
    obtain ⟨length, kept, set⟩ := ih (setBit bytes first)
    rw [length_setBit] at length set
    refine ⟨length, fun bit held => kept bit (hasBit_setBit held), fun bit member inside => ?_⟩
    cases mem_cons.mp member with
    | inl same =>
      subst same
      exact kept bit (hasBit_setBit_self inside)
    | inr later => exact set bit later inside

variable {filter : BloomFilter}

theorem mayContain_iff (nonempty : filter.bytes ≠ []) (key : Bytes) : filter.mayContain key = true ↔
      ∀ bit ∈ keyBits filter.hashCount (filter.bytes.length * 8) key,
        hasBit filter.bytes bit = true := by
  rw [mayContain, isEmpty_eq_false_iff.mpr nonempty, Bool.false_or, all_eq_true]
  rfl

theorem div_lt_of_mem_keyBits {hashCount : UInt32} {size bit : Nat} {key : Bytes}
    (positive : 0 < size) (member : bit ∈ keyBits hashCount (size * 8) key) : bit / 8 < size := by
  obtain ⟨i, _, rfl⟩ := mem_map.mp member
  rw [Nat.div_lt_iff_lt_mul (by decide)]
  exact Nat.mod_lt _ (by omega)

theorem add_spec (nonempty : filter.bytes ≠ []) (key : Bytes) :
    (filter.add key).hashCount = filter.hashCount ∧
      (filter.add key).bytes.length = filter.bytes.length ∧ (filter.add key).bytes ≠ [] ∧
        (filter.add key).mayContain key = true ∧
          ∀ other, filter.mayContain other = true → (filter.add key).mayContain other = true := by
  have whole : filter.add key = { filter with
      bytes := (keyBits filter.hashCount (filter.bytes.length * 8) key).foldl setBit
        filter.bytes } := by
    rw [add, isEmpty_eq_false_iff.mpr nonempty]
    rfl
  obtain ⟨length, kept, set⟩ :=
    foldl_setBit (keyBits filter.hashCount (filter.bytes.length * 8) key) filter.bytes
  have positive := length_pos_iff.mpr nonempty
  have added : (filter.add key).bytes ≠ [] := by
    rw [← length_pos_iff, whole, length]
    exact positive
  refine ⟨by rw [whole], by rw [whole, length], added, ?_, fun other contained => ?_⟩
  · rw [mayContain_iff added, whole]
    dsimp only
    rw [length]
    exact fun bit member => set bit member (div_lt_of_mem_keyBits positive member)
  · rw [mayContain_iff nonempty] at contained
    rw [mayContain_iff added, whole]
    dsimp only
    rw [length]
    exact fun bit member => kept bit (contained bit member)

theorem foldl_add_spec (records : List TableRecord) (nonempty : filter.bytes ≠ []) :
    let final := records.foldl (fun bloom record => bloom.add record.userKey) filter
    final.bytes.length = filter.bytes.length ∧
      (∀ key, filter.mayContain key = true → final.mayContain key = true) ∧
        ∀ record ∈ records, final.mayContain record.userKey = true := by
  induction records generalizing filter with
  | nil => simp
  | cons record records ih =>
    obtain ⟨_, addedLength, added, contains, kept⟩ := add_spec nonempty record.userKey
    obtain ⟨length, later, all⟩ := ih added
    refine ⟨length.trans addedLength, fun key held => later key (kept key held), ?_⟩
    intro other member
    cases mem_cons.mp member with
    | inl same => exact same ▸ later _ contains
    | inr rest => exact all other rest

end BloomFilter

theorem memcmp_take (left right : Bytes) :
    (memcmp (left.take (min left.length right.length)) (right.take (min left.length right.length))).then
        (compare left.length right.length) =
      if left < right then .lt else if right < left then .gt else .eq := by
  induction left generalizing right with
  | nil =>
    cases right with
    | nil => rfl
    | cons byte right => simp [memcmp, compare, compareOfLessAndEq]
  | cons first left ih =>
    cases right with
    | nil => simp [memcmp, compare, compareOfLessAndEq]
    | cons second right =>
      have shared : min (first :: left).length (second :: right).length =
          min left.length right.length + 1 := by
        simp only [length_cons]
        omega
      have lengths : compare (first :: left).length (second :: right).length =
          compare left.length right.length := by
        simp only [length_cons, Nat.compare_eq_ite_lt, Nat.add_lt_add_iff_right]
      rw [shared, lengths, take_succ_cons, take_succ_cons, memcmp]
      by_cases below : first < second
      · rw [if_pos below, if_pos (cons_lt_cons_iff.mpr (.inl below))]
        rfl
      · by_cases above : second < first
        · have notLess : ¬first :: left < second :: right :=
            not_lt_of_gt (cons_lt_cons_iff.mpr (.inl above))
          rw [if_neg below, if_pos above, if_neg notLess,
            if_pos (cons_lt_cons_iff.mpr (.inl above))]
          rfl
        · obtain rfl := le_antisymm (not_lt.mp above) (not_lt.mp below)
          rw [if_neg below, if_neg below, ih right]
          simp only [cons_lt_cons_iff, lt_self_iff_false, true_and, false_or]

theorem compareKeys_eq (recordKey key : Bytes) : compareKeys recordKey key =
    if recordKey < key then .lt else if key < recordKey then .gt else .eq :=
  memcmp_take recordKey key

/-- Records in the order of their keys. -/
def Sorted (records : List TableRecord) : Prop :=
  records.Pairwise fun before after => before.userKey < after.userKey

def lookup (key : Bytes) (records : List TableRecord) : Option TableRecord :=
  records.find? fun record => record.userKey = key

theorem lookup_eq_none
    (other : ∀ record ∈ records, record.userKey ≠ key) : lookup key records = none :=
  find?_eq_none.mpr fun record member => by simpa using other record member

theorem scanRecordsForKey_encodeRecords
    (fits : ∀ record ∈ records, Fits record) (sorted : Sorted records) (key : Bytes)
    (enough : records.length ≤ fuel) :
    scanRecordsForKey key fuel (encodeRecords records) = lookup key records := by
  induction records generalizing fuel with
  | nil => cases fuel <;> rfl
  | cons record records ih =>
    cases fuel with
    | zero => exact absurd enough (by simp)
    | succ fuel =>
      obtain ⟨above, rest⟩ := pairwise_cons.mp sorted
      have first := decodeTableRecord_reads (fits record (by simp)) (encodeRecords records)
      have whole : encodeRecords (record :: records) =
        encodeTableRecord record ++ encodeRecords records := rfl
      rw [scanRecordsForKey, whole, if_neg (encodeTableRecord_ne_nil record _), first]
      dsimp only
      rw [compareKeys_eq]
      by_cases below : record.userKey < key
      · rw [if_pos below]
        dsimp only
        rw [ih (fun other member => fits other (by simp [member])) rest
          (Nat.le_of_succ_le_succ enough), lookup, lookup,
          find?_cons_of_neg (by simpa using below.ne)]
      · rw [if_neg below]
        by_cases passed : key < record.userKey
        · rw [if_pos passed, lookup_eq_none]
          intro other member
          cases mem_cons.mp member with
          | inl same => exact same ▸ passed.ne'
          | inr later => exact (passed.trans (above other later)).ne'
        · have same : record.userKey = key :=
            le_antisymm (not_lt.mp passed) (not_lt.mp below)
          rw [if_neg passed, lookup, find?_cons_of_pos (by simpa using same)]
          simp only [← same]

variable {block : List TableRecord}

theorem headKey_mem (nonempty : block ≠ []) : ∃ record ∈ block, record.userKey = headKey block := by
  cases block with
  | nil => exact absurd rfl nonempty
  | cons record block => exact ⟨record, by simp, rfl⟩

theorem headKey_le (sorted : Sorted block) : ∀ record ∈ block, headKey block ≤ record.userKey := by
  intro record member
  cases block with
  | nil => cases member
  | cons first block =>
    cases mem_cons.mp member with
    | inl same => exact same ▸ le_rfl
    | inr later => exact ((pairwise_cons.mp sorted).1 record later).le

/-- Does a block start at or below a key? -/
def startsBelow (key : Bytes) (block : List TableRecord) : Bool := decide (headKey block ≤ key)

variable {blocks : List (List TableRecord)}

theorem downClosed_startsBelow
    (filled : ∀ block ∈ blocks, block ≠ []) (sorted : Sorted blocks.flatten) (key : Bytes) :
    DownClosed (startsBelow key) blocks := by
  induction blocks with
  | nil => exact .nil
  | cons block blocks ih =>
    rw [Sorted, flatten_cons, pairwise_append] at sorted
    refine .cons (fun other member held => ?_)
      (ih (fun other member => filled other (by simp [member])) sorted.2.1)
    obtain ⟨first, firstMember, firstKey⟩ := headKey_mem (filled block (by simp))
    obtain ⟨second, secondMember, secondKey⟩ :=
      headKey_mem (filled other (mem_cons_of_mem _ member))
    have ordered := sorted.2.2 first firstMember second
      (mem_flatten.mpr ⟨other, member, secondMember⟩)
    rw [firstKey, secondKey] at ordered
    exact decide_eq_true (ordered.le.trans (of_decide_eq_true held))

/-- A key is in the last block that starts at or below it, if anywhere. -/
theorem lookup_flatten
    (filled : ∀ block ∈ blocks, block ≠ []) (sorted : Sorted blocks.flatten) (key : Bytes) :
    ((blocks.takeWhile (startsBelow key)).length = 0 → lookup key blocks.flatten = none) ∧
      ∀ position, (blocks.takeWhile (startsBelow key)).length = position + 1 →
        ∃ block, blocks[position]? = some block ∧ headKey block ≤ key ∧
          lookup key blocks.flatten = lookup key block := by
  induction blocks with
  | nil => simp [lookup]
  | cons block blocks ih =>
    rw [Sorted, flatten_cons, pairwise_append] at sorted
    obtain ⟨none_of_zero, some_of_succ⟩ :=
      ih (fun other member => filled other (by simp [member])) sorted.2.1
    by_cases below : headKey block ≤ key
    · have starts : startsBelow key block = true := decide_eq_true below
      rw [takeWhile_cons_of_pos starts, length_cons]
      refine ⟨fun zero => by omega, fun position same => ?_⟩
      cases position with
      | zero =>
        have nothing := none_of_zero (by omega)
        refine ⟨block, rfl, below, ?_⟩
        rw [lookup, flatten_cons, find?_append, ← lookup, ← lookup, nothing,
          Option.or_none]
      | succ position =>
        obtain ⟨other, found, otherBelow, looked⟩ := some_of_succ position (by omega)
        have member := mem_of_getElem? found
        obtain ⟨first, firstMember, firstKey⟩ :=
          headKey_mem (filled other (mem_cons_of_mem _ member))
        have nothing : lookup key block = none := by
          apply lookup_eq_none
          intro record inside
          have ordered := sorted.2.2 record inside first
            (mem_flatten.mpr ⟨other, member, firstMember⟩)
          rw [firstKey] at ordered
          exact (ordered.trans_le otherBelow).ne
        refine ⟨other, found, otherBelow, ?_⟩
        rw [lookup, flatten_cons, find?_append, ← lookup, ← lookup, nothing,
          Option.none_or, looked]
    · rw [takeWhile_cons_of_neg (by simpa [startsBelow] using below)]
      refine ⟨fun _ => lookup_eq_none fun record member => ?_, fun position same => by simp at same⟩
      obtain ⟨first, firstMember, firstKey⟩ := headKey_mem (filled block (by simp))
      rw [flatten_cons] at member
      have above : headKey block ≤ record.userKey := by
        cases mem_append.mp member with
        | inl inside => exact headKey_le sorted.1 record inside
        | inr later => exact firstKey ▸ (sorted.2.2 first firstMember record later).le
      exact ((not_le.mp below).trans_le above).ne'

variable {crc32 : Bytes → UInt32}

variable {handle : TableHandle}

/-- The bisection of the index counts the blocks that start at or below a key. -/
theorem findCandidateBlockIndex_eq
    (locates : List.Forall₂ (Locates crc32 handle.file) handle.blocks blocks)
    (filled : ∀ block ∈ blocks, block ≠ []) (sorted : Sorted blocks.flatten) (key : Bytes) :
    handle.findCandidateBlockIndex key =
      if (blocks.takeWhile (startsBelow key)).length = 0 then -1
      else Int.bmod ((blocks.takeWhile (startsBelow key)).length - 1) (2 ^ 32) := by
  have agrees : ∀ (position : Nat) (block : List TableRecord), blocks[position]? = some block →
      decide (((handle.blocks[position]?.map BlockIndexEntry.firstKey).getD []) ≤ key) =
        startsBelow key block := by
    intro position block found
    obtain ⟨inside, same⟩ := List.getElem?_eq_some_iff.mp found
    have entryInside : position < handle.blocks.length := by rwa [locates.length_eq]
    have entry := (forall₂_iff_get.mp locates).2 position entryInside inside
    rw [getElem?_eq_getElem entryInside, Option.map_some, Option.getD_some, startsBelow,
      ← same]
    exact congrArg (fun firstKey => decide (firstKey ≤ key)) entry.1
  have counted := bisect_takeWhile (downClosed_startsBelow filled sorted key) agrees
  rw [← locates.length_eq] at counted
  rw [TableHandle.findCandidateBlockIndex, counted]

theorem scanBlockForKey_of_locates (locates : Locates crc32 handle.file entry block)
    (fits : ∀ record ∈ block, Fits record) (sorted : Sorted block) (key : Bytes) :
    handle.scanBlockForKey entry key = lookup key block := by
  rw [TableHandle.scanBlockForKey, locates.2]
  exact scanRecordsForKey_encodeRecords fits sorted key (length_le_encodeRecords block)

/-- A handle of a table whose blocks are all found. -/
structure Opened (crc32 : Bytes → UInt32) (handle : TableHandle)
    (blocks : List (List TableRecord)) : Prop where
  locates : List.Forall₂ (Locates crc32 handle.file) handle.blocks blocks
  filled : ∀ block ∈ blocks, block ≠ []
  some : blocks ≠ []
  fits : ∀ record ∈ blocks.flatten, Fits record
  sorted : Sorted blocks.flatten
  least : ∀ record ∈ blocks.flatten, handle.minUserKey ≤ record.userKey
  greatest : handle.maxUserKey ≠ [] →
    ∀ record ∈ blocks.flatten, record.userKey ≤ handle.maxUserKey

theorem findRecord_of_opened {handle : TableHandle} {blocks : List (List TableRecord)}
    (opened : Opened crc32 handle blocks) (few : blocks.length ≤ 2 ^ 31) (key : Bytes) :
    handle.findRecord key =
      if handle.bloom.mayContain key then lookup key blocks.flatten else none := by
  have entries : ¬handle.blocks.isEmpty = true := by
    rw [List.isEmpty_iff, ← length_eq_zero_iff, opened.locates.length_eq,
      length_eq_zero_iff]
    exact opened.some
  rw [TableHandle.findRecord]
  by_cases contains : handle.bloom.mayContain key = true
  · rw [if_pos contains]
    by_cases outside : (!handle.minUserKey.isEmpty) = true ∧ key < handle.minUserKey ∨
        (!handle.maxUserKey.isEmpty) = true ∧ handle.maxUserKey < key
    · rw [if_pos (.inr (.inr outside)), lookup_eq_none]
      intro record member
      cases outside with
      | inl below => exact (below.2.trans_le (opened.least record member)).ne'
      | inr above =>
        have known : handle.maxUserKey ≠ [] := by simpa using above.1
        exact ((opened.greatest known record member).trans_lt above.2).ne
    · have inRange : ¬(handle.blocks.isEmpty = true ∨ (!handle.bloom.mayContain key) = true ∨
          (!handle.minUserKey.isEmpty) = true ∧ key < handle.minUserKey ∨
            (!handle.maxUserKey.isEmpty) = true ∧ handle.maxUserKey < key) := by
        rw [not_or, not_or]
        exact ⟨entries, by simp [contains], outside⟩
      obtain ⟨none_of_zero, some_of_succ⟩ := lookup_flatten opened.filled opened.sorted key
      have bounded := (takeWhile_sublist (l := blocks) (startsBelow key)).length_le
      rw [if_neg inRange, findCandidateBlockIndex_eq opened.locates opened.filled opened.sorted]
      cases count : (blocks.takeWhile (startsBelow key)).length with
      | zero => rw [if_pos rfl, if_pos (by decide), none_of_zero count]
      | succ position =>
        obtain ⟨block, found, _, looked⟩ := some_of_succ position count
        have index : Int.bmod ((position + 1 : Nat) - 1) (2 ^ 32) = position := by
          rw [Int.bmod]
          omega
        obtain ⟨inside, same⟩ := List.getElem?_eq_some_iff.mp found
        have entryInside : position < handle.blocks.length := by rwa [opened.locates.length_eq]
        have entry := (forall₂_iff_get.mp opened.locates).2 position entryInside inside
        have member := mem_of_getElem? found
        have scanned := scanBlockForKey_of_locates entry
          (fun record inBlock => opened.fits record (mem_flatten.mpr
            ⟨_, get_mem _ _, inBlock⟩))
          (opened.sorted.sublist (sublist_flatten_of_mem (get_mem _ _))) key
        rw [if_neg (by omega), index, if_neg (by omega), Int.toNat_natCast,
          getElem?_eq_getElem entryInside, looked, ← same]
        exact scanned
  · rw [if_neg contains, if_pos (.inr (.inl (by simpa using contains)))]

/-- A block whose position is no number on 31 bits is never scanned. -/
theorem findRecord_of_far (locates : List.Forall₂ (Locates crc32 handle.file) handle.blocks blocks)
    (filled : ∀ block ∈ blocks, block ≠ []) (sorted : Sorted blocks.flatten)
    (far : 2 ^ 31 ≤ position) (number : position < 2 ^ 32)
    (found : blocks[position]? = some block) : handle.findRecord (headKey block) = none := by
  have closed := downClosed_startsBelow filled sorted (headKey block)
  have reached := (closed.holds_iff found).mp (decide_eq_true le_rfl)
  have last : ¬position + 1 < (blocks.takeWhile (startsBelow (headKey block))).length := by
    intro more
    have bounded := (takeWhile_sublist (l := blocks) (startsBelow (headKey block))).length_le
    have next := getElem?_eq_getElem (show position + 1 < blocks.length by omega)
    have starts := of_decide_eq_true ((closed.holds_iff next).mpr more)
    obtain ⟨inside, same⟩ := List.getElem?_eq_some_iff.mp found
    have pairs := pairwise_iff_getElem.mp (pairwise_flatten.mp sorted).2 position
      (position + 1) inside (by omega) (by omega)
    obtain ⟨first, firstMember, firstKey⟩ := headKey_mem (filled block (mem_of_getElem? found))
    obtain ⟨second, secondMember, secondKey⟩ :=
      headKey_mem (filled _ (mem_of_getElem? next))
    have ordered := pairs first (same ▸ firstMember) second secondMember
    rw [firstKey, secondKey] at ordered
    exact absurd starts (not_le.mpr ordered)
  have count : (blocks.takeWhile (startsBelow (headKey block))).length = position + 1 := by omega
  have candidate : handle.findCandidateBlockIndex (headKey block) < 0 := by
    rw [findCandidateBlockIndex_eq locates filled sorted, count, if_neg (by omega), Int.bmod]
    omega
  rw [TableHandle.findRecord]
  split
  · rfl
  · rw [if_pos candidate]

end SwStack.EmbeddedDb.TableFile
