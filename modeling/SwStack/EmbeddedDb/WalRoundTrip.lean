import SwStack.EmbeddedDb.Wal

/-! What is written is read back. Every length the format stores is 32 bits wide,
so the judgment asks that the encoding itself is shorter than that; a frame
within its estimate gives the bound for every part at once. -/
namespace SwStack.EmbeddedDb

open SwStack.Lib List

def RoundTrips (reader : Reader UInt8 α) (encode : α → Bytes) : Prop :=
  ∀ value, (encode value).length < 2 ^ 32 → reader.Reads (encode value) value

@[simp] theorem length_writeU32LE (value : UInt32) : (writeU32LE value).length = 4 :=
  length_littleEndian _ _

@[simp] theorem length_writeU64LE (value : UInt64) : (writeU64LE value).length = 8 :=
  length_littleEndian _ _

@[simp] theorem length_writeBytes (bytes : Bytes) : (writeBytes bytes).length = 4 + bytes.length := by
  simp [writeBytes]

theorem readU8_reads (byte : UInt8) : readU8.Reads [byte] byte := by
  have fits : byte.toNat < 256 ^ 1 := byte.toNat_lt
  have read := (readNumber_reads fits).bind_pure UInt8.ofNat
  rw [littleEndian, littleEndian, UInt8.ofNat_toNat] at read
  exact read

theorem readU32LE_reads (value : UInt32) : readU32LE.Reads (writeU32LE value) value := by
  have fits : value.toNat < 256 ^ 4 := value.toNat_lt
  have read := (readNumber_reads fits).bind_pure UInt32.ofNat
  rwa [UInt32.ofNat_toNat] at read

theorem readU64LE_reads (value : UInt64) : readU64LE.Reads (writeU64LE value) value := by
  have fits : value.toNat < 256 ^ 8 := value.toNat_lt
  have read := (readNumber_reads fits).bind_pure UInt64.ofNat
  rwa [UInt64.ofNat_toNat] at read

theorem readBytes_roundTrips : RoundTrips readBytes writeBytes := by
  intro bytes fits
  simp only [length_writeBytes] at fits
  have stored : bytes.length = (UInt32.ofNat bytes.length).toNat := by
    exact (Nat.mod_eq_of_lt (by omega)).symm
  exact (readU32LE_reads _).bind (Reader.Reads.take stored)

theorem length_le_of_mem {encode : α → Bytes} {values : List α} (member : value ∈ values) :
    (encode value).length ≤ (values.flatMap encode).length := by
  rw [length_flatMap]
  exact single_le_sum (by simp) _ (mem_map.mpr ⟨value, member, rfl⟩)

theorem length_le_flatMap {encode : α → Bytes} (occupied : ∀ value, 1 ≤ (encode value).length)
    (values : List α) : values.length ≤ (values.flatMap encode).length := by
  induction values with
  | nil => simp
  | cons value values ih =>
    have first := occupied value
    simp only [length_cons, flatMap_cons, length_append]
    omega

theorem readList_roundTrips {encode : α → Bytes} (occupied : ∀ value, 1 ≤ (encode value).length)
    (each : RoundTrips reader encode) : RoundTrips (readList reader) (writeList encode) := by
  intro values fits
  simp only [writeList, length_append, length_writeU32LE] at fits
  have count : values.length = (UInt32.ofNat values.length).toNat := by
    have bound := length_le_flatMap occupied values
    exact (Nat.mod_eq_of_lt (by omega)).symm
  have items : (reader.times (UInt32.ofNat values.length).toNat).Reads
      (values.flatMap encode) values := by
    rw [← count]
    refine Reader.Reads.times fun value member => each value ?_
    have bound : (encode value).length ≤ (values.flatMap encode).length := length_le_of_mem member
    omega
  exact (readU32LE_reads _).bind items

theorem readIndexKeys_roundTrips : RoundTrips readIndexKeys writeIndexKeys := by
  intro entry fits
  simp only [writeIndexKeys, length_append] at fits
  have indexName := readBytes_roundTrips entry.1 (by omega)
  have keys := readList_roundTrips (by simp; omega) readBytes_roundTrips entry.2 (by omega)
  exact indexName.bind (keys.bind_pure fun keys => (entry.1, keys))

theorem decodeSecondaryKeys_roundTrips : RoundTrips decodeSecondaryKeys writeSecondaryKeys := by
  intro keys fits
  have entries := readList_roundTrips (by simp [writeIndexKeys]; omega) readIndexKeys_roundTrips
    keys.entries fits
  have read := entries.bind_pure SortedMap.ofList
  rwa [SortedMap.ofList_entries] at read

theorem readBlobFields_reads (blob : BlobFields) :
    readBlobFields.Reads (writeBlobFields blob) blob := by
  refine (readU64LE_reads blob.fileId).bind ((readU64LE_reads blob.offset).bind
    ((readU32LE_reads blob.length).bind ((readU32LE_reads blob.crc32).bind ?_)))
  exact (readU32LE_reads blob.flags).bind_pure fun flags => { blob with flags }

theorem readOperation_roundTrips : RoundTrips readOperation writeOperation := by
  intro operation fits
  cases operation with
  | put key value keys =>
    simp only [writeOperation, length_cons, length_append] at fits
    refine (readU8_reads 0).bind ((readBytes_roundTrips key (by omega)).bind ?_)
    refine (readBytes_roundTrips value (by omega)).bind ?_
    exact (decodeSecondaryKeys_roundTrips keys (by omega)).bind_pure (Operation.put key value)
  | putBlobRef key blob keys =>
    simp only [writeOperation, length_cons, length_append] at fits
    refine (readU8_reads 2).bind ((readBytes_roundTrips key (by omega)).bind ?_)
    refine (readBlobFields_reads blob).bind ?_
    exact (decodeSecondaryKeys_roundTrips keys (by omega)).bind_pure (Operation.putBlobRef key blob)
  | erase key =>
    simp only [writeOperation, length_cons] at fits
    exact (readU8_reads 1).bind ((readBytes_roundTrips key (by omega)).bind_pure Operation.erase)

theorem length_writeIndexKeys (entry : IndexName × List Bytes) :
    (writeIndexKeys entry).length = estimateIndexWalBytes entry := by
  simp [writeIndexKeys, writeList, estimateIndexWalBytes, length_flatMap]
  omega

theorem length_writeSecondaryKeys (keys : SecondaryKeys) :
    (writeSecondaryKeys keys).length = estimateSecondaryKeysWalBytes keys := by
  simp [writeSecondaryKeys, writeList, estimateSecondaryKeysWalBytes, length_flatMap,
    length_writeIndexKeys]

theorem length_writeOperation (operation : Operation) :
    (writeOperation operation).length = estimateOperationWalBytes operation := by
  cases operation <;>
    simp [writeOperation, estimateOperationWalBytes, writeBlobFields, length_writeSecondaryKeys] <;>
    omega

theorem length_writeWalPayload (frame : WalFrame) :
    (writeWalPayload frame).length = estimatedWalBytes frame.batch := by
  have operations : (frame.batch.map fun operation => (writeOperation operation).length) =
      frame.batch.map estimateOperationWalBytes :=
    map_congr_left fun operation _ => length_writeOperation operation
  simp only [writeWalPayload, writeList, estimatedWalBytes, length_append, length_flatMap,
    length_writeU64LE, length_writeU32LE, operations]
  omega

theorem decodeWalPayload_writeWalPayload (fits : (writeWalPayload frame).length < 2 ^ 32) :
    decodeWalPayload (writeWalPayload frame) = some frame := by
  have operations : RoundTrips (readList readOperation) (writeList writeOperation) :=
    readList_roundTrips (fun operation => by cases operation <;> simp [writeOperation])
      readOperation_roundTrips
  have read : readWalPayload.Reads (writeWalPayload frame) frame := by
    simp only [writeWalPayload, length_append] at fits
    exact (readU64LE_reads frame.sequence).bind
      ((operations frame.batch (by omega)).bind_pure fun batch => { frame with batch })
  have whole := read []
  rw [append_nil] at whole
  simp only [decodeWalPayload, whole]

end SwStack.EmbeddedDb
