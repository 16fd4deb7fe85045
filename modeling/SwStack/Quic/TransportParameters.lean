import SwStack.Quic.VarInt
import SwStack.Types.ByteArray

/-! Transport parameters: a sequence of ids, lengths and values. A parameter that has its default
value is left out, and unknown ids are skipped. -/
namespace SwStack.Quic

open SwStack.Lib SwStack.Types

def idOriginalDestinationConnectionId : Nat := 0x00
def idMaxIdleTimeout : Nat := 0x01
def idStatelessResetToken : Nat := 0x02
def idMaxUdpPayloadSize : Nat := 0x03
def idInitialMaxData : Nat := 0x04
def idInitialMaxStreamDataBidiLocal : Nat := 0x05
def idInitialMaxStreamDataBidiRemote : Nat := 0x06
def idInitialMaxStreamDataUni : Nat := 0x07
def idInitialMaxStreamsBidi : Nat := 0x08
def idInitialMaxStreamsUni : Nat := 0x09
def idAckDelayExponent : Nat := 0x0a
def idMaxAckDelay : Nat := 0x0b
def idDisableActiveMigration : Nat := 0x0c
def idActiveConnectionIdLimit : Nat := 0x0e
def idInitialSourceConnectionId : Nat := 0x0f
def idRetrySourceConnectionId : Nat := 0x10
def idResetStreamAt : Nat := 0x1d
def idMaxDatagramFrameSize : Nat := 0x20

structure QuicTransportParameters where
  maxIdleTimeoutMs : Nat := 0
  maxUdpPayloadSize : Nat := 65527
  initialMaxData : Nat := 0
  initialMaxStreamDataBidiLocal : Nat := 0
  initialMaxStreamDataBidiRemote : Nat := 0
  initialMaxStreamDataUni : Nat := 0
  initialMaxStreamsBidi : Nat := 0
  initialMaxStreamsUni : Nat := 0
  ackDelayExponent : Nat := 3
  maxAckDelayMs : Nat := 25
  disableActiveMigration : Bool := false
  activeConnectionIdLimit : Nat := 2
  maxDatagramFrameSize : Nat := 0
  resetStreamAt : Bool := false
  originalDestinationConnectionId : Bytes := []
  statelessResetToken : Bytes := []
  initialSourceConnectionId : Bytes := []
  retrySourceConnectionId : Bytes := []
  hasOriginalDestinationConnectionId : Bool := false
  hasStatelessResetToken : Bool := false
  hasInitialSourceConnectionId : Bool := false
  hasRetrySourceConnectionId : Bool := false
  deriving DecidableEq

namespace QuicTransportParameters

def appendBytesParam (out : Bytes) (id : Nat) (value : Bytes) : Except String Bytes := do
  let idBytes ← encodeVarInt id
  let lengthBytes ← encodeVarInt value.length
  return out ++ idBytes ++ lengthBytes ++ value

def appendVarIntParam (out : Bytes) (id value : Nat) : Except String Bytes := do
  let encodedValue ← encodeVarInt value
  appendBytesParam out id encodedValue

def appendEmptyParam (out : Bytes) (id : Nat) : Except String Bytes := appendBytesParam out id []

/-- The three shapes of a parameter. -/
inductive Param where
  | bytes (id : Nat) (value : Bytes)
  | varInt (id value : Nat)
  | empty (id : Nat)

def Param.append (out : Bytes) : Param → Except String Bytes
  | .bytes id value => appendBytesParam out id value
  | .varInt id value => appendVarIntParam out id value
  | .empty id => appendEmptyParam out id

/-- What `encode` writes, in its order, each under the condition that it is written at all. -/
def params (p : QuicTransportParameters) : List (Bool × Param) := [
  (p.hasOriginalDestinationConnectionId,
    .bytes idOriginalDestinationConnectionId p.originalDestinationConnectionId),
  (p.maxIdleTimeoutMs != 0, .varInt idMaxIdleTimeout p.maxIdleTimeoutMs),
  (p.hasStatelessResetToken, .bytes idStatelessResetToken p.statelessResetToken),
  (p.maxUdpPayloadSize != 65527, .varInt idMaxUdpPayloadSize p.maxUdpPayloadSize),
  (p.initialMaxData != 0, .varInt idInitialMaxData p.initialMaxData),
  (p.initialMaxStreamDataBidiLocal != 0,
    .varInt idInitialMaxStreamDataBidiLocal p.initialMaxStreamDataBidiLocal),
  (p.initialMaxStreamDataBidiRemote != 0,
    .varInt idInitialMaxStreamDataBidiRemote p.initialMaxStreamDataBidiRemote),
  (p.initialMaxStreamDataUni != 0,
    .varInt idInitialMaxStreamDataUni p.initialMaxStreamDataUni),
  (p.initialMaxStreamsBidi != 0, .varInt idInitialMaxStreamsBidi p.initialMaxStreamsBidi),
  (p.initialMaxStreamsUni != 0, .varInt idInitialMaxStreamsUni p.initialMaxStreamsUni),
  (p.ackDelayExponent != 3, .varInt idAckDelayExponent p.ackDelayExponent),
  (p.maxAckDelayMs != 25, .varInt idMaxAckDelay p.maxAckDelayMs),
  (p.disableActiveMigration, .empty idDisableActiveMigration),
  (p.activeConnectionIdLimit != 2,
    .varInt idActiveConnectionIdLimit p.activeConnectionIdLimit),
  (p.hasInitialSourceConnectionId,
    .bytes idInitialSourceConnectionId p.initialSourceConnectionId),
  (p.hasRetrySourceConnectionId, .bytes idRetrySourceConnectionId p.retrySourceConnectionId),
  (p.resetStreamAt, .empty idResetStreamAt),
  (p.maxDatagramFrameSize != 0, .varInt idMaxDatagramFrameSize p.maxDatagramFrameSize)]

def encode (p : QuicTransportParameters) : Except String Bytes :=
  p.params.foldlM (fun out param => if param.1 then param.2.append out else .ok out) []

/-- The integer fields, which are set through a pointer to one of them. -/
inductive VarIntField where
  | maxIdleTimeoutMs
  | maxUdpPayloadSize
  | initialMaxData
  | initialMaxStreamDataBidiLocal
  | initialMaxStreamDataBidiRemote
  | initialMaxStreamDataUni
  | initialMaxStreamsBidi
  | initialMaxStreamsUni
  | ackDelayExponent
  | maxAckDelayMs
  | activeConnectionIdLimit
  | maxDatagramFrameSize
  deriving DecidableEq

def store (p : QuicTransportParameters) (value : Nat) : VarIntField → QuicTransportParameters
  | .maxIdleTimeoutMs => { p with maxIdleTimeoutMs := value }
  | .maxUdpPayloadSize => { p with maxUdpPayloadSize := value }
  | .initialMaxData => { p with initialMaxData := value }
  | .initialMaxStreamDataBidiLocal => { p with initialMaxStreamDataBidiLocal := value }
  | .initialMaxStreamDataBidiRemote => { p with initialMaxStreamDataBidiRemote := value }
  | .initialMaxStreamDataUni => { p with initialMaxStreamDataUni := value }
  | .initialMaxStreamsBidi => { p with initialMaxStreamsBidi := value }
  | .initialMaxStreamsUni => { p with initialMaxStreamsUni := value }
  | .ackDelayExponent => { p with ackDelayExponent := value }
  | .maxAckDelayMs => { p with maxAckDelayMs := value }
  | .activeConnectionIdLimit => { p with activeConnectionIdLimit := value }
  | .maxDatagramFrameSize => { p with maxDatagramFrameSize := value }

def varIntTarget (id : Nat) : Option VarIntField :=
  if id = idMaxIdleTimeout then some .maxIdleTimeoutMs
  else if id = idMaxUdpPayloadSize then some .maxUdpPayloadSize
  else if id = idInitialMaxData then some .initialMaxData
  else if id = idInitialMaxStreamDataBidiLocal then some .initialMaxStreamDataBidiLocal
  else if id = idInitialMaxStreamDataBidiRemote then some .initialMaxStreamDataBidiRemote
  else if id = idInitialMaxStreamDataUni then some .initialMaxStreamDataUni
  else if id = idInitialMaxStreamsBidi then some .initialMaxStreamsBidi
  else if id = idInitialMaxStreamsUni then some .initialMaxStreamsUni
  else if id = idAckDelayExponent then some .ackDelayExponent
  else if id = idMaxAckDelay then some .maxAckDelayMs
  else if id = idActiveConnectionIdLimit then some .activeConnectionIdLimit
  else if id = idMaxDatagramFrameSize then some .maxDatagramFrameSize
  else none

def applyDecoded (p : QuicTransportParameters) (id : Nat) (value : Bytes) :
    Except DecodeFailure QuicTransportParameters :=
  if id = idOriginalDestinationConnectionId then
    .ok { p with originalDestinationConnectionId := value
                 hasOriginalDestinationConnectionId := true }
  else if id = idStatelessResetToken then
    if value.length ≠ 16 then .error (.error "QUIC stateless reset token must be 16 bytes")
    else .ok { p with statelessResetToken := value, hasStatelessResetToken := true }
  else if id = idInitialSourceConnectionId then
    .ok { p with initialSourceConnectionId := value, hasInitialSourceConnectionId := true }
  else if id = idRetrySourceConnectionId then
    .ok { p with retrySourceConnectionId := value, hasRetrySourceConnectionId := true }
  else if id = idDisableActiveMigration then
    if !value.isEmpty then .error (.error "QUIC disable_active_migration must be empty")
    else .ok { p with disableActiveMigration := true }
  else if id = idResetStreamAt then
    if !value.isEmpty then .error (.error "QUIC reset_stream_at must be empty")
    else .ok { p with resetStreamAt := true }
  else match varIntTarget id with
  | none => .ok p
  | some target =>
    match decodeVarInt value 0 with
    | .error failure => .error failure
    | .ok (decoded, valueOffset) =>
      if valueOffset ≠ value.length then
        .error (.error "QUIC transport parameter has trailing bytes")
      else if id = idAckDelayExponent ∧ 20 < decoded then
        .error (.error "QUIC ack_delay_exponent must be at most 20")
      else if id = idMaxAckDelay ∧ 16384 ≤ decoded then
        .error (.error "QUIC max_ack_delay must be below 2^14")
      else if id = idActiveConnectionIdLimit ∧ decoded < 2 then
        .error (.error "QUIC active_connection_id_limit must be at least 2")
      else if id = idMaxUdpPayloadSize ∧ decoded < 1200 then
        .error (.error "QUIC max_udp_payload_size must be at least 1200")
      else .ok (p.store decoded target)

def readValue (length : Nat) : Decoder Bytes := fun bytes offset =>
  if bytes.length - offset < length then
    .error (.error "QUIC transport parameter value is truncated")
  else match mid bytes (toInt offset) (toInt length) with
  | some value => .ok (value, offset + length)
  | none => .error .outside

def readParameter : Decoder (Nat × Bytes) := do
  let id ← decodeVarInt
  let length ← decodeVarInt
  let value ← readValue length
  return (id, value)

def decodeLoop (bytes : Bytes) :
    Nat → Nat → QuicTransportParameters → Except DecodeFailure QuicTransportParameters
  | 0, offset, parameters =>
    if bytes.length ≤ offset then .ok parameters else .error .unfinished
  | fuel + 1, offset, parameters =>
    if bytes.length ≤ offset then .ok parameters
    else match readParameter bytes offset with
    | .error failure => .error failure
    | .ok ((id, value), next) =>
      match parameters.applyDecoded id value with
      | .error failure => .error failure
      | .ok applied => decodeLoop bytes fuel next applied

/-- The failure, if any, and the output object afterwards. -/
def decode (bytes : Bytes) (outParameters : QuicTransportParameters) :
    Option DecodeFailure × QuicTransportParameters :=
  match decodeLoop bytes bytes.length 0 {} with
  | .ok parameters => (none, parameters)
  | .error failure => (some failure, outParameters)

def load (p : QuicTransportParameters) : VarIntField → Nat
  | .maxIdleTimeoutMs => p.maxIdleTimeoutMs
  | .maxUdpPayloadSize => p.maxUdpPayloadSize
  | .initialMaxData => p.initialMaxData
  | .initialMaxStreamDataBidiLocal => p.initialMaxStreamDataBidiLocal
  | .initialMaxStreamDataBidiRemote => p.initialMaxStreamDataBidiRemote
  | .initialMaxStreamDataUni => p.initialMaxStreamDataUni
  | .initialMaxStreamsBidi => p.initialMaxStreamsBidi
  | .initialMaxStreamsUni => p.initialMaxStreamsUni
  | .ackDelayExponent => p.ackDelayExponent
  | .maxAckDelayMs => p.maxAckDelayMs
  | .activeConnectionIdLimit => p.activeConnectionIdLimit
  | .maxDatagramFrameSize => p.maxDatagramFrameSize

def VarIntField.id : VarIntField → Nat
  | .maxIdleTimeoutMs => idMaxIdleTimeout
  | .maxUdpPayloadSize => idMaxUdpPayloadSize
  | .initialMaxData => idInitialMaxData
  | .initialMaxStreamDataBidiLocal => idInitialMaxStreamDataBidiLocal
  | .initialMaxStreamDataBidiRemote => idInitialMaxStreamDataBidiRemote
  | .initialMaxStreamDataUni => idInitialMaxStreamDataUni
  | .initialMaxStreamsBidi => idInitialMaxStreamsBidi
  | .initialMaxStreamsUni => idInitialMaxStreamsUni
  | .ackDelayExponent => idAckDelayExponent
  | .maxAckDelayMs => idMaxAckDelay
  | .activeConnectionIdLimit => idActiveConnectionIdLimit
  | .maxDatagramFrameSize => idMaxDatagramFrameSize

inductive Setting where
  | bytes (present : Bool) (value : Bytes)
  | number (value : Nat)
  | flag (value : Bool)
  | unknown
  deriving DecidableEq

def setting (p : QuicTransportParameters) (id : Nat) : Setting :=
  if id = idOriginalDestinationConnectionId then
    .bytes p.hasOriginalDestinationConnectionId p.originalDestinationConnectionId
  else if id = idStatelessResetToken then .bytes p.hasStatelessResetToken p.statelessResetToken
  else if id = idInitialSourceConnectionId then
    .bytes p.hasInitialSourceConnectionId p.initialSourceConnectionId
  else if id = idRetrySourceConnectionId then
    .bytes p.hasRetrySourceConnectionId p.retrySourceConnectionId
  else if id = idDisableActiveMigration then .flag p.disableActiveMigration
  else if id = idResetStreamAt then .flag p.resetStreamAt
  else match varIntTarget id with
  | some target => .number (p.load target)
  | none => .unknown

variable {p q : QuicTransportParameters} {id : Nat} {value : Bytes} {target : VarIntField}

theorem varIntTarget_eq_some : varIntTarget id = some target ↔ target.id = id := by
  constructor
  · intro found
    revert found
    fun_cases varIntTarget id <;> intro found <;> cases found <;> symm <;> assumption
  · intro same
    subst same
    cases target <;> rfl

theorem setting_id (p : QuicTransportParameters) (target : VarIntField) :
    p.setting target.id = .number (p.load target) := by
  cases target <;> rfl

theorem load_store (p : QuicTransportParameters) (decoded : Nat) (target other : VarIntField) :
    (p.store decoded target).load other = if other = target then decoded else p.load other := by
  cases target <;> cases other <;> rfl

theorem setting_ext (same : ∀ id, p.setting id = q.setting id) : p = q := by
  have loads : ∀ target, p.load target = q.load target := by
    intro target
    have number := same target.id
    rw [setting_id, setting_id] at number
    exact Setting.number.inj number
  cases p
  cases q
  obtain ⟨rfl, rfl⟩ := Setting.bytes.inj (same idOriginalDestinationConnectionId)
  obtain ⟨rfl, rfl⟩ := Setting.bytes.inj (same idStatelessResetToken)
  obtain ⟨rfl, rfl⟩ := Setting.bytes.inj (same idInitialSourceConnectionId)
  obtain ⟨rfl, rfl⟩ := Setting.bytes.inj (same idRetrySourceConnectionId)
  obtain rfl := Setting.flag.inj (same idDisableActiveMigration)
  obtain rfl := Setting.flag.inj (same idResetStreamAt)
  obtain rfl := loads .maxIdleTimeoutMs
  obtain rfl := loads .maxUdpPayloadSize
  obtain rfl := loads .initialMaxData
  obtain rfl := loads .initialMaxStreamDataBidiLocal
  obtain rfl := loads .initialMaxStreamDataBidiRemote
  obtain rfl := loads .initialMaxStreamDataUni
  obtain rfl := loads .initialMaxStreamsBidi
  obtain rfl := loads .initialMaxStreamsUni
  obtain rfl := loads .ackDelayExponent
  obtain rfl := loads .maxAckDelayMs
  obtain rfl := loads .activeConnectionIdLimit
  obtain rfl := loads .maxDatagramFrameSize
  rfl

theorem setting_store (p : QuicTransportParameters) (decoded other : Nat) :
    (p.store decoded target).setting other =
      if other = target.id then .number decoded else p.setting other := by
  by_cases here : other = target.id
  · rw [if_pos here, here, setting_id, load_store, if_pos rfl]
  · rw [if_neg here]
    unfold setting
    cases found : varIntTarget other with
    | none => cases target <;> rfl
    | some field =>
      have different : field ≠ target := by
        rintro rfl
        exact here (varIntTarget_eq_some.mp found).symm
      dsimp only
      rw [load_store, if_neg different]
      cases target <;> rfl

/-- What accepted bytes say under an id. -/
def spelled (id : Nat) (value : Bytes) : Setting :=
  match setting {} id with
  | .bytes _ _ => .bytes true value
  | .flag _ => .flag true
  | .number _ =>
    match decodeVarInt value 0 with
    | .ok (decoded, _) => .number decoded
    | .error _ => .unknown
  | .unknown => .unknown

/-- Accepted bytes change what is said under their id and nothing else. -/
theorem setting_applyDecoded (applied : p.applyDecoded id value = .ok q) (other : Nat) :
    q.setting other = if other = id then spelled id value else p.setting other := by
  revert applied
  fun_cases applyDecoded p id value <;> intro applied <;> cases applied
  case case1 same | case3 same _ | case4 same | case5 same | case7 same _ | case9 same _ =>
    subst same
    split
    · rename_i here
      rw [here]
      rfl
    · rename_i elsewhere
      unfold setting
      simp only [if_neg elsewhere]
      cases varIntTarget other with
      | none => rfl
      | some target => cases target <;> rfl
  case case10 originalId token initialId retryId migration reset unfound =>
    split
    · rename_i here
      rw [here]
      unfold spelled setting
      simp only [if_neg originalId, if_neg token, if_neg initialId, if_neg retryId,
        if_neg migration, if_neg reset, unfound]
    · rfl
  case case17 target found decoded _ read _ _ _ _ _ =>
    obtain rfl := varIntTarget_eq_some.mp found
    rw [setting_store]
    split
    · unfold spelled
      rw [setting_id, read]
    · rfl

end QuicTransportParameters
end SwStack.Quic
