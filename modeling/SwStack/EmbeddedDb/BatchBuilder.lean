import SwStack.EmbeddedDb.WalRoundTrip
import SwStack.Types.JsonValue

/-! Batches under construction. The size of the log payload is estimated as operations are added;
JSON payloads are counted when they are asked for, and become bytes when they are materialised. -/
namespace SwStack.EmbeddedDb

open SwStack.Lib SwStack.Types List

/-- An operation, or one whose value is still a JSON object. -/
inductive BatchOperation where
  | plain (operation : Operation)
  | json (primaryKey : Bytes) (jsonPayload : JsonObject) (secondaryKeys : SecondaryKeys)

structure BatchBuilder where
  operations : List BatchOperation
  walEstimateBytes : Nat

inductive BatchCall where
  | put (primaryKey value : Bytes) (secondaryKeys : SecondaryKeys)
  | putJson (primaryKey : Bytes) (value : JsonObject) (secondaryKeys : SecondaryKeys)
  | putBlobRef (primaryKey : Bytes) (blob : BlobFields) (secondaryKeys : SecondaryKeys)
  | erase (primaryKey : Bytes)
  | clear
  | materializeJson

variable (numbers : Numbers)

namespace BatchOperation

def estimateWalBytes : BatchOperation → Nat
  | .plain operation => estimateOperationWalBytes operation
  | .json primaryKey jsonPayload secondaryKeys =>
    1 + 4 + primaryKey.length + (4 + (jsonBytes numbers jsonPayload).length) +
      estimateSecondaryKeysWalBytes secondaryKeys

def hasJson : BatchOperation → Bool
  | .plain _ => false
  | .json _ _ _ => true

def materialize : BatchOperation → BatchOperation
  | .plain operation => .plain operation
  | .json primaryKey jsonPayload secondaryKeys =>
    .plain (.put primaryKey (jsonBytes numbers jsonPayload) secondaryKeys)

/-- The fields that the log is written from: the value of a JSON operation is empty. -/
def fields : BatchOperation → Operation
  | .plain operation => operation
  | .json primaryKey _ secondaryKeys => .put primaryKey [] secondaryKeys

end BatchOperation

namespace BatchBuilder

def empty : BatchBuilder where
  operations := []
  walEstimateBytes := 12

/-- `put`, `putBlobRef` and `erase`. -/
def add (batch : BatchBuilder) (operation : Operation) : BatchBuilder where
  operations := batch.operations ++ [.plain operation]
  walEstimateBytes := batch.walEstimateBytes + estimateOperationWalBytes operation

def putJson (batch : BatchBuilder) (primaryKey : Bytes) (value : JsonObject)
    (secondaryKeys : SecondaryKeys) : BatchBuilder :=
  { batch with operations := batch.operations ++ [.json primaryKey value secondaryKeys] }

def sumWalBytes (operations : List BatchOperation) : Nat :=
  operations.foldl (fun bytes operation => bytes + operation.estimateWalBytes numbers) 12

def materializeJson (batch : BatchBuilder) : BatchBuilder where
  operations := batch.operations.map (BatchOperation.materialize numbers)
  walEstimateBytes := sumWalBytes numbers (batch.operations.map (BatchOperation.materialize numbers))

def hasJson (batch : BatchBuilder) : Bool := batch.operations.any BatchOperation.hasJson

def estimatedWalBytes (batch : BatchBuilder) : Nat :=
  if !batch.hasJson then batch.walEstimateBytes else sumWalBytes numbers batch.operations

def call (batch : BatchBuilder) : BatchCall → BatchBuilder
  | .put primaryKey value secondaryKeys => batch.add (.put primaryKey value secondaryKeys)
  | .putJson primaryKey value secondaryKeys => batch.putJson primaryKey value secondaryKeys
  | .putBlobRef primaryKey blob secondaryKeys =>
    batch.add (.putBlobRef primaryKey blob secondaryKeys)
  | .erase primaryKey => batch.add (.erase primaryKey)
  | .clear => empty
  | .materializeJson => batch.materializeJson numbers

def build (calls : List BatchCall) : BatchBuilder := calls.foldl (call numbers) empty

/-- `writeWalPayload_`, which writes at a cursor. -/
def writeWalPayload (sequence : UInt64) (batch : BatchBuilder) : Bytes :=
  EmbeddedDb.writeWalPayload { sequence, batch := batch.operations.map BatchOperation.fields }

def appendSecondaryKeys (keys : SecondaryKeys) (out : Bytes) : Bytes :=
  keys.entries.foldl (fun out entry =>
    entry.2.foldl (fun out key => out ++ writeBytes key)
      ((out ++ writeBytes entry.1) ++ writeU32LE (UInt32.ofNat entry.2.length)))
    (out ++ writeU32LE (UInt32.ofNat keys.entries.length))

def appendOperation (payload : Bytes) : Operation → Bytes
  | .put primaryKey value secondaryKeys =>
    appendSecondaryKeys secondaryKeys
      (((payload ++ [0]) ++ writeBytes primaryKey) ++ writeBytes value)
  | .putBlobRef primaryKey blob secondaryKeys =>
    appendSecondaryKeys secondaryKeys
      (((((((payload ++ [2]) ++ writeBytes primaryKey) ++ writeU64LE blob.fileId) ++
        writeU64LE blob.offset) ++ writeU32LE blob.length) ++ writeU32LE blob.crc32) ++
          writeU32LE blob.flags)
  | .erase primaryKey => (payload ++ [1]) ++ writeBytes primaryKey

/-- `encodeWalPayload`, which appends. -/
def encodeWalPayload (sequence : UInt64) (batch : BatchBuilder) : Bytes :=
  batch.operations.foldl (fun payload operation => appendOperation payload operation.fields)
    (writeU64LE sequence ++ writeU32LE (UInt32.ofNat batch.operations.length))

variable (crc32 : Bytes → UInt32)

/-- The frame has room for the estimated payload, cut to 32 bits. A longer payload is written past
its end, where the source's behaviour is undefined; no frame is produced then. -/
def appendWalFrame (out : Bytes) (sequence : UInt64) (batch : BatchBuilder) : Option Bytes :=
  let payloadBytes := UInt32.ofNat (batch.estimatedWalBytes numbers)
  let payload := batch.writeWalPayload sequence
  if payload.length ≤ payloadBytes.toNat then
    let room := payload ++ List.replicate (payloadBytes.toNat - payload.length) 0
    some (out ++ (walMagic ++ (writeU32LE payloadBytes ++ (writeU32LE (crc32 room) ++ room))))
  else none

/-- The operations are put into an empty batch as they are read. -/
def decodeWalPayload (payload : Bytes) : Option (UInt64 × BatchBuilder) :=
  (EmbeddedDb.decodeWalPayload payload).map fun frame =>
    (frame.sequence, frame.batch.foldl add empty)

variable {numbers crc32}

theorem jsonBytes_pos (object : JsonObject) : 0 < (jsonBytes numbers object).length := by
  cases object with
  | nil => exact Nat.succ_pos _
  | cons member members =>
    rw [jsonBytes, toJson, generateJson]
    exact Nat.succ_pos _

/-- The bytes of the JSON value that the log does not receive. -/
def unwritten (numbers : Numbers) : BatchOperation → Nat
  | .plain _ => 0
  | .json _ jsonPayload _ => (jsonBytes numbers jsonPayload).length

theorem estimateWalBytes_eq (operation : BatchOperation) :
    operation.estimateWalBytes numbers =
      (writeOperation operation.fields).length + unwritten numbers operation := by
  cases operation with
  | plain operation => exact (length_writeOperation operation).symm
  | json primaryKey jsonPayload secondaryKeys =>
    rw [length_writeOperation]
    simp only [BatchOperation.estimateWalBytes, BatchOperation.fields, estimateOperationWalBytes,
      unwritten, length_nil]
    omega

theorem sumWalBytes_append (operations : List BatchOperation) (operation : BatchOperation) :
    sumWalBytes numbers (operations ++ [operation]) =
      sumWalBytes numbers operations + operation.estimateWalBytes numbers := by
  rw [sumWalBytes, foldl_append]
  rfl

theorem sumWalBytes_eq (numbers : Numbers) (sequence : UInt64) (batch : BatchBuilder) :
    sumWalBytes numbers batch.operations = (batch.writeWalPayload sequence).length +
      (batch.operations.map (unwritten numbers)).sum := by
  have walk (operations : List BatchOperation) : sumWalBytes numbers operations =
      12 + (operations.map fun operation => (writeOperation operation.fields).length).sum +
        (operations.map (unwritten numbers)).sum := by
    induction operations using List.reverseRecOn with
    | nil => rfl
    | append_singleton operations operation ih =>
      rw [sumWalBytes_append, ih, estimateWalBytes_eq, map_append, map_append,
        sum_append, sum_append, map_singleton, map_singleton, sum_singleton,
        sum_singleton]
      omega
  rw [walk, writeWalPayload, EmbeddedDb.writeWalPayload, writeList, length_append,
    length_append, length_flatMap, map_map, length_writeU64LE, length_writeU32LE]
  change _ = 8 + (4 + (batch.operations.map fun operation =>
    (writeOperation operation.fields).length).sum) + _
  omega

/-- The sum kept by the calls is the sum of the estimates, unless a JSON value is waiting. -/
def Tracked (numbers : Numbers) (batch : BatchBuilder) : Prop :=
  batch.hasJson = false → batch.walEstimateBytes = sumWalBytes numbers batch.operations

variable {batch : BatchBuilder}

theorem Tracked.add (tracked : Tracked numbers batch)
    (operation : Operation) : Tracked numbers (batch.add operation) := by
  intro plain
  rw [hasJson, BatchBuilder.add, any_append, Bool.or_eq_false_iff] at plain
  rw [BatchBuilder.add, sumWalBytes_append, tracked plain.1]
  rfl

theorem Tracked.call (tracked : Tracked numbers batch) (next : BatchCall) :
    Tracked numbers (batch.call numbers next) := by
  cases next with
  | put primaryKey value secondaryKeys => exact tracked.add _
  | putJson primaryKey value secondaryKeys =>
    intro plain
    rw [hasJson, BatchBuilder.call, putJson, any_append, Bool.or_eq_false_iff] at plain
    cases plain.2
  | putBlobRef primaryKey blob secondaryKeys => exact tracked.add _
  | erase primaryKey => exact tracked.add _
  | clear => exact fun _ => rfl
  | materializeJson => exact fun _ => rfl

theorem tracked_build (calls : List BatchCall) : Tracked numbers (build numbers calls) := by
  induction calls using List.reverseRecOn with
  | nil => exact fun _ => rfl
  | append_singleton calls next ih =>
    rw [build, foldl_append]
    exact ih.call next

theorem Tracked.estimatedWalBytes_eq (tracked : Tracked numbers batch) :
    batch.estimatedWalBytes numbers = sumWalBytes numbers batch.operations := by
  rw [estimatedWalBytes]
  cases waiting : batch.hasJson with
  | false => exact tracked waiting
  | true => rfl

theorem sum_unwritten_eq_zero_iff (numbers : Numbers) (operations : List BatchOperation) :
    (operations.map (unwritten numbers)).sum = 0 ↔
      operations.any BatchOperation.hasJson = false := by
  rw [sum_eq_zero_iff, any_eq_false]
  constructor
  · intro zero operation member json
    cases operation with
    | plain operation => cases json
    | json primaryKey jsonPayload secondaryKeys =>
      have absent := zero _ (mem_map_of_mem member)
      exact absurd absent (jsonBytes_pos jsonPayload).ne'
  · intro plain count member
    obtain ⟨operation, held, rfl⟩ := mem_map.mp member
    cases operation with
    | plain operation => rfl
    | json primaryKey jsonPayload secondaryKeys => exact absurd rfl (plain _ held)

theorem foldl_append_eq (encode : α → Bytes) (values : List α) (out : Bytes) :
    values.foldl (fun out value => out ++ encode value) out = out ++ values.flatMap encode := by
  induction values generalizing out with
  | nil => exact (append_nil out).symm
  | cons value values ih => rw [foldl_cons, ih, flatMap_cons, append_assoc]

theorem appendSecondaryKeys_eq (keys : SecondaryKeys) (out : Bytes) :
    appendSecondaryKeys keys out = out ++ writeSecondaryKeys keys := by
  have entry : (fun (out : Bytes) (entry : IndexName × List Bytes) =>
      entry.2.foldl (fun out key => out ++ writeBytes key)
        ((out ++ writeBytes entry.1) ++ writeU32LE (UInt32.ofNat entry.2.length))) =
      fun out entry => out ++ writeIndexKeys entry := by
    funext out entry
    rw [foldl_append_eq, writeIndexKeys, writeList, append_assoc, append_assoc]
  rw [appendSecondaryKeys, entry, foldl_append_eq, writeSecondaryKeys, writeList, append_assoc]

theorem appendOperation_eq (payload : Bytes) (operation : Operation) :
    appendOperation payload operation = payload ++ writeOperation operation := by
  cases operation with
  | put primaryKey value secondaryKeys =>
    rw [appendOperation, appendSecondaryKeys_eq]
    simp only [writeOperation, append_assoc, cons_append, nil_append]
  | putBlobRef primaryKey blob secondaryKeys =>
    rw [appendOperation, appendSecondaryKeys_eq]
    simp only [writeOperation, writeBlobFields, append_assoc, cons_append,
      nil_append]
  | erase primaryKey =>
    rw [appendOperation, append_assoc]
    rfl

theorem encodeWalPayload_eq (sequence : UInt64) (batch : BatchBuilder) :
    batch.encodeWalPayload sequence = batch.writeWalPayload sequence := by
  have step : (fun (payload : Bytes) (operation : BatchOperation) =>
      appendOperation payload operation.fields) =
      fun payload operation => payload ++ writeOperation operation.fields := by
    funext payload operation
    rw [appendOperation_eq]
  rw [encodeWalPayload, step, foldl_append_eq, writeWalPayload, EmbeddedDb.writeWalPayload,
    writeList, length_map, flatMap_map, append_assoc]

theorem operations_foldl_add (operations : List Operation) (batch : BatchBuilder) :
    (operations.foldl add batch).operations =
      batch.operations ++ operations.map BatchOperation.plain := by
  induction operations generalizing batch with
  | nil => exact (append_nil _).symm
  | cons operation operations ih =>
    rw [foldl_cons, ih, map_cons]
    exact (append_cons _ _ _).symm

/-- The estimate, the two encoders and the decoder agree on a batch. -/
structure InStep (numbers : Numbers) (crc32 : Bytes → UInt32) (sequence : UInt64)
    (batch : BatchBuilder) : Prop where
  estimate : batch.estimatedWalBytes numbers = (batch.writeWalPayload sequence).length
  frame : ∀ out, batch.appendWalFrame numbers crc32 out sequence =
    some (out ++ (walMagic ++
      (writeU32LE (UInt32.ofNat (batch.estimatedWalBytes numbers)) ++
        (writeU32LE (crc32 (batch.writeWalPayload sequence)) ++ batch.writeWalPayload sequence))))
  encoders : batch.writeWalPayload sequence = batch.encodeWalPayload sequence
  decoded : ∃ again, decodeWalPayload (batch.writeWalPayload sequence) = some (sequence, again) ∧
    again.operations = batch.operations

theorem Tracked.inStep_iff (tracked : Tracked numbers batch)
    (sequence : UInt64) : InStep numbers crc32 sequence batch ↔
      batch.hasJson = false ∧ batch.estimatedWalBytes numbers < 2 ^ 32 := by
  have total := sumWalBytes_eq numbers sequence batch
  rw [← tracked.estimatedWalBytes_eq] at total
  have cut : (UInt32.ofNat (batch.estimatedWalBytes numbers)).toNat =
      batch.estimatedWalBytes numbers % 2 ^ 32 := rfl
  constructor
  · intro inStep
    have estimate := inStep.estimate
    refine ⟨(sum_unwritten_eq_zero_iff numbers batch.operations).mp (by omega), ?_⟩
    have frame := inStep.frame []
    rw [appendWalFrame, Option.ite_none_right_eq_some, cut] at frame
    have room := frame.1
    omega
  · rintro ⟨plain, small⟩
    have absent := (sum_unwritten_eq_zero_iff numbers batch.operations).mpr plain
    have estimate : batch.estimatedWalBytes numbers = (batch.writeWalPayload sequence).length := by
      omega
    rw [Nat.mod_eq_of_lt small] at cut
    refine ⟨estimate, fun out => ?_, (encodeWalPayload_eq sequence batch).symm, ?_⟩
    · rw [appendWalFrame, cut]
      dsimp only
      rw [if_pos estimate.ge, estimate, Nat.sub_self]
      exact congrArg (fun room => some (out ++ (walMagic ++ (writeU32LE _ ++
        (writeU32LE (crc32 room) ++ room))))) (append_nil _)
    · have decoded : EmbeddedDb.decodeWalPayload (batch.writeWalPayload sequence) =
          some { sequence, batch := batch.operations.map BatchOperation.fields } :=
        decodeWalPayload_writeWalPayload (estimate ▸ small)
      refine ⟨_, congrArg (Option.map _) decoded, ?_⟩
      rw [operations_foldl_add, map_map]
      refine (map_congr_left fun operation member => ?_).trans (map_id _)
      cases operation with
      | plain operation => rfl
      | json primaryKey jsonPayload secondaryKeys =>
        exact absurd rfl (any_eq_false.mp plain _ member)

/-- For every way of building a batch: the codec is in step exactly when no JSON value waits to be
materialised and the payload is shorter than its length field can tell. -/
theorem build_inStep_iff (numbers : Numbers) (crc32 : Bytes → UInt32) (calls : List BatchCall)
    (sequence : UInt64) : InStep numbers crc32 sequence (build numbers calls) ↔
      (build numbers calls).hasJson = false ∧
        (build numbers calls).estimatedWalBytes numbers < 2 ^ 32 :=
  (tracked_build calls).inStep_iff sequence

/-- Two values of two gibibytes are more than a frame has room for. -/
theorem inStep_fails_of_size : ¬∃ (numbers : Numbers) (crc32 : Bytes → UInt32),
    InStep numbers crc32 0 (build numbers [.put [1] (List.replicate (2 ^ 31) 0) ∅,
      .put [2] (List.replicate (2 ^ 31) 0) ∅]) := by
  rintro ⟨numbers, crc32, inStep⟩
  have large (value : Bytes) : 2 * value.length ≤
      (build numbers [.put [1] value ∅, .put [2] value ∅]).estimatedWalBytes numbers := by
    change 2 * value.length ≤ 12 + (1 + 4 + 1 + (4 + value.length) + _) +
      (1 + 4 + 1 + (4 + value.length) + _)
    omega
  have small := (((tracked_build _).inStep_iff 0).mp inStep).2
  have enough := (large (List.replicate (2 ^ 31) 0)).trans_lt small
  rw [length_replicate] at enough
  omega

end BatchBuilder
end SwStack.EmbeddedDb
