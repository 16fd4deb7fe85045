import SwStack.Quic.TransportParameters

/-! Transport parameters come back from what was written of them, as far as the decoder's casts
find each value where it stands. -/
namespace SwStack.Quic.QuicTransportParameters

open SwStack.Lib SwStack.Types List

variable {p q r : QuicTransportParameters} {id : Nat}

/-- The three kinds of accepted values, and what is skipped. -/
inductive Spells (id : Nat) (value : Bytes) : Setting → Prop where
  | bytes : Spells id value (.bytes true value)
  | flag : value = [] → Spells id value (.flag true)
  | number : id = VarIntField.id target → decodeVarInt value 0 = .ok (decoded, value.length) →
      Spells id value (.number decoded)
  | unknown : Spells id value .unknown

theorem spells_of_applyDecoded (applied : p.applyDecoded id value = .ok q) :
    Spells id value (spelled id value) := by
  revert applied
  fun_cases applyDecoded p id value <;> intro applied <;> cases applied
  case case1 same | case3 same _ | case4 same | case5 same =>
    subst same
    exact .bytes
  case case7 same empty | case9 same empty =>
    subst same
    exact .flag (by simpa using empty)
  case case10 originalId token initialId retryId migration reset unfound =>
    have unknown : spelled id value = .unknown := by
      unfold spelled setting
      simp only [if_neg originalId, if_neg token, if_neg initialId, if_neg retryId,
        if_neg migration, if_neg reset, unfound]
    rw [unknown]
    exact .unknown
  case case17 target found decoded _ read whole _ _ _ _ =>
    obtain rfl := varIntTarget_eq_some.mp found
    have number : spelled target.id value = .number decoded := by
      unfold spelled
      rw [setting_id, read]
    rw [not_not.mp whole] at read
    rw [number]
    exact .number rfl read

theorem Spells.unique (first : Spells id left said)
    (second : Spells id right said) (known : said ≠ .unknown)
    (length : ∀ target : VarIntField, id = target.id → left.length = right.length) :
    left = right := by
  cases first with
  | bytes =>
    cases second
    rfl
  | flag empty =>
    cases second with
    | flag alsoEmpty => rw [empty, alsoEmpty]
  | @number target decoded here read =>
    cases second with
    | number _ alsoRead => exact decodeVarInt_injective read alsoRead (length target here)
  | unknown => exact absurd rfl known

def Param.entry : Param → Nat × Bytes
  | .bytes id value => (id, value)
  | .varInt id value => (id, varIntBytes value)
  | .empty id => (id, [])

def written (p : QuicTransportParameters) : List Param := (p.params.filter Prod.fst).map Prod.snd

def entries (p : QuicTransportParameters) : List (Nat × Bytes) := p.written.map Param.entry

def entryBytes (entry : Nat × Bytes) : Bytes :=
  varIntBytes entry.1 ++ varIntBytes entry.2.length ++ entry.2

def text (p : QuicTransportParameters) : Bytes := p.entries.flatMap entryBytes

/-- The entries as the decoder finds them in a text from an offset on. -/
def foundEntries (bytes : Bytes) : Nat → List (Nat × Bytes) → List (Nat × Bytes)
  | _, [] => []
  | offset, (id, value) :: entries =>
    let start := offset + (varIntBytes id).length + (varIntBytes value.length).length
    (id, foundAt bytes start value.length) :: foundEntries bytes (start + value.length) entries

/-- What the decoder's limits ask of the fields. -/
structure Legal (p : QuicTransportParameters) : Prop where
  varInts : ∀ target, p.load target ≤ maxVarInt
  token : p.hasStatelessResetToken = true → p.statelessResetToken.length = 16
  ackDelayExponent : p.ackDelayExponent ≤ 20
  maxAckDelay : p.maxAckDelayMs < 2 ^ 14
  connectionIds : 2 ≤ p.activeConnectionIdLimit
  udpPayload : 1200 ≤ p.maxUdpPayloadSize
  noOriginalId : p.hasOriginalDestinationConnectionId = false →
    p.originalDestinationConnectionId = []
  noToken : p.hasStatelessResetToken = false → p.statelessResetToken = []
  noInitialId : p.hasInitialSourceConnectionId = false → p.initialSourceConnectionId = []
  noRetryId : p.hasRetrySourceConnectionId = false → p.retrySourceConnectionId = []

def RoundTrips (p : QuicTransportParameters) : Prop :=
  ∃ bytes, p.encode = .ok bytes ∧ ∀ out, decode bytes out = (none, p)

/-- Every value can be given its length, and is found where it stands. -/
def Findable (p : QuicTransportParameters) : Prop :=
  (∀ entry ∈ p.entries, entry.2.length ≤ maxVarInt) ∧
    foundEntries p.text 0 p.entries = p.entries

theorem entryBytes_length (small : entry.1 ≤ maxVarInt) : 0 < (entryBytes entry).length := by
  have positive := (varIntBytes_length small).1
  unfold entryBytes
  rw [length_append, length_append]
  omega

theorem appendBytesParam_eq (out : Bytes) (small : id ≤ maxVarInt)
    (fits : value.length ≤ maxVarInt) :
    appendBytesParam out id value = .ok (out ++ entryBytes (id, value)) := by
  unfold appendBytesParam entryBytes
  rw [varIntBytes_eq small, varIntBytes_eq fits]
  simp only [append_assoc]
  rfl

variable {out bytes : Bytes}

theorem fits_of_appendBytesParam
    (appended : appendBytesParam out id value = .ok bytes) : value.length ≤ maxVarInt := by
  unfold appendBytesParam at appended
  cases first : encodeVarInt id with
  | error message =>
    rw [first] at appended
    cases appended
  | ok idBytes =>
    cases second : encodeVarInt value.length with
    | error message =>
      rw [first, second] at appended
      cases appended
    | ok lengthBytes => exact (encodeVarInt_length second).2

theorem appendVarIntParam_eq (out : Bytes) (small : id ≤ maxVarInt)
    (fits : (varIntBytes number).length ≤ maxVarInt) (spellable : number ≤ maxVarInt) :
    appendVarIntParam out id number = .ok (out ++ entryBytes (id, varIntBytes number)) := by
  unfold appendVarIntParam
  rw [varIntBytes_eq spellable]
  exact appendBytesParam_eq out small fits

theorem fits_of_appendVarIntParam (appended : appendVarIntParam out id number = .ok bytes) :
    (varIntBytes number).length ≤ maxVarInt := by
  unfold appendVarIntParam at appended
  cases encoded : encodeVarInt number with
  | error message =>
    rw [encoded] at appended
    cases appended
  | ok encodedValue =>
    rw [encoded] at appended
    rw [varIntBytes, encoded]
    exact fits_of_appendBytesParam appended

variable {param : Param}

theorem Param.append_eq (out : Bytes) (small : param.entry.1 ≤ maxVarInt)
    (fits : param.entry.2.length ≤ maxVarInt)
    (spellable : ∀ id value, param = .varInt id value → value ≤ maxVarInt) :
    param.append out = .ok (out ++ entryBytes param.entry) := by
  cases param with
  | bytes id value => exact appendBytesParam_eq out small fits
  | varInt id value => exact appendVarIntParam_eq out small fits (spellable id value rfl)
  | empty id => exact appendBytesParam_eq out small fits

theorem Param.fits_of_append
    (appended : param.append out = .ok bytes) : param.entry.2.length ≤ maxVarInt := by
  cases param with
  | bytes id value => exact fits_of_appendBytesParam appended
  | varInt id value => exact fits_of_appendVarIntParam appended
  | empty id => exact fits_of_appendBytesParam appended

theorem foldlM_written (rows : List (Bool × Param)) (out : Bytes) :
    rows.foldlM (fun out param => if param.1 then param.2.append out else .ok out) out =
      ((rows.filter Prod.fst).map Prod.snd).foldlM (fun out param => param.append out) out := by
  induction rows generalizing out with
  | nil => rfl
  | cons row rows ih =>
    obtain ⟨_ | _, param⟩ := row
    · exact ih out
    · rw [foldlM_cons, filter_cons_of_pos rfl, map_cons, foldlM_cons]
      simp only [if_true, ih]

theorem encode_eq_written (p : QuicTransportParameters) :
    p.encode = p.written.foldlM (fun out param => param.append out) [] := foldlM_written _ _

def byteIds : List Nat := [idOriginalDestinationConnectionId, idStatelessResetToken,
  idInitialSourceConnectionId, idRetrySourceConnectionId]

def flagIds : List Nat := [idDisableActiveMigration, idResetStreamAt]

inductive Describes (p : QuicTransportParameters) : Bool → Param → Prop where
  | bytes {id : Nat} {present : Bool} {value : Bytes} : id ∈ byteIds →
      p.setting id = .bytes present value → Describes p present (.bytes id value)
  | varInt (target : VarIntField) {present : Bool} :
      present = (p.load target != load {} target) →
      Describes p present (.varInt target.id (p.load target))
  | empty {id : Nat} {present : Bool} : id ∈ flagIds → p.setting id = .flag present →
      Describes p present (.empty id)

theorem params_describe (p : QuicTransportParameters) :
    ∀ row ∈ p.params, Describes p row.1 row.2 := by
  unfold params
  simp only [forall_mem_cons, not_mem_nil, false_imp_iff, implies_true, and_true]
  exact ⟨.bytes (by decide) rfl, .varInt .maxIdleTimeoutMs rfl, .bytes (by decide) rfl,
    .varInt .maxUdpPayloadSize rfl, .varInt .initialMaxData rfl,
    .varInt .initialMaxStreamDataBidiLocal rfl, .varInt .initialMaxStreamDataBidiRemote rfl,
    .varInt .initialMaxStreamDataUni rfl, .varInt .initialMaxStreamsBidi rfl,
    .varInt .initialMaxStreamsUni rfl, .varInt .ackDelayExponent rfl, .varInt .maxAckDelayMs rfl,
    .empty (by decide) rfl, .varInt .activeConnectionIdLimit rfl, .bytes (by decide) rfl,
    .bytes (by decide) rfl, .empty (by decide) rfl, .varInt .maxDatagramFrameSize rfl⟩

theorem params_ids (p : QuicTransportParameters) : p.params.map (fun row => row.2.entry.1) =
    [idOriginalDestinationConnectionId, idMaxIdleTimeout, idStatelessResetToken,
      idMaxUdpPayloadSize, idInitialMaxData, idInitialMaxStreamDataBidiLocal,
      idInitialMaxStreamDataBidiRemote, idInitialMaxStreamDataUni, idInitialMaxStreamsBidi,
      idInitialMaxStreamsUni, idAckDelayExponent, idMaxAckDelay, idDisableActiveMigration,
      idActiveConnectionIdLimit, idInitialSourceConnectionId, idRetrySourceConnectionId,
      idResetStreamAt, idMaxDatagramFrameSize] := rfl

theorem mem_written (member : param ∈ p.written) : Describes p true param := by
  obtain ⟨⟨present, param⟩, kept, rfl⟩ := mem_map.mp member
  obtain ⟨row, rfl⟩ := mem_filter.mp kept
  exact params_describe p _ row

theorem nodup_entries (p : QuicTransportParameters) : (p.entries.map Prod.fst).Nodup := by
  have ids := params_ids p
  have sublist : (p.entries.map Prod.fst).Sublist (p.params.map fun row => row.2.entry.1) := by
    unfold entries written
    rw [map_map, map_map]
    exact (filter_sublist).map _
  rw [ids] at sublist
  exact sublist.nodup (by decide)

theorem id_small (target : VarIntField) : target.id ≤ maxVarInt := by
  cases target <;> decide

theorem Describes.small (describes : Describes p present param) : param.entry.1 ≤ maxVarInt := by
  cases describes with
  | bytes listed said =>
    revert listed
    exact fun listed => (by decide : ∀ id ∈ byteIds, id ≤ maxVarInt) _ listed
  | varInt target _ => exact id_small target
  | empty listed said => exact (by decide : ∀ id ∈ flagIds, id ≤ maxVarInt) _ listed

theorem Describes.append_eq (describes : Describes p true param)
    (legal : p.Legal) (out : Bytes) (fits : param.entry.2.length ≤ maxVarInt) :
    param.append out = .ok (out ++ entryBytes param.entry) := by
  refine Param.append_eq out describes.small fits fun id value same => ?_
  cases describes with
  | bytes listed said => cases same
  | varInt target _ =>
    cases same
    exact legal.varInts target
  | empty listed said => cases same

variable {written : List Param}

theorem foldlM_append_eq (legal : p.Legal) (described : ∀ param ∈ written, Describes p true param)
    (fits : ∀ param ∈ written, param.entry.2.length ≤ maxVarInt) (out : Bytes) :
    written.foldlM (fun out param => param.append out) out =
      .ok (out ++ (written.map Param.entry).flatMap entryBytes) := by
  induction written generalizing out with
  | nil =>
    rw [map_nil, flatMap_nil, append_nil]
    rfl
  | cons param written ih =>
    have first := (described param mem_cons_self).append_eq legal out
      (fits param mem_cons_self)
    rw [foldlM_cons, first, map_cons, flatMap_cons, ← append_assoc]
    exact ih (fun other member => described other (mem_cons_of_mem _ member))
      (fun other member => fits other (mem_cons_of_mem _ member)) _

theorem encode_eq (legal : p.Legal) (fits : ∀ entry ∈ p.entries, entry.2.length ≤ maxVarInt) :
    p.encode = .ok p.text := by
  rw [encode_eq_written]
  exact foldlM_append_eq legal (fun _ => mem_written)
    (fun param member => fits _ (mem_map_of_mem member)) []

theorem fits_of_foldlM
    (encoded : written.foldlM (fun out param => param.append out) out = .ok bytes) :
    ∀ param ∈ written, param.entry.2.length ≤ maxVarInt := by
  induction written generalizing out with
  | nil => simp
  | cons param written ih =>
    rw [foldlM_cons] at encoded
    cases appended : param.append out with
    | error message =>
      rw [appended] at encoded
      cases encoded
    | ok more =>
      rw [appended] at encoded
      intro other member
      rcases mem_cons.mp member with rfl | later
      · exact Param.fits_of_append appended
      · exact ih encoded other later

theorem fits_of_encode (encoded : p.encode = .ok bytes) :
    ∀ entry ∈ p.entries, entry.2.length ≤ maxVarInt := by
  rw [encode_eq_written] at encoded
  intro entry member
  obtain ⟨param, written, rfl⟩ := mem_map.mp member
  exact fits_of_foldlM encoded param written

theorem Legal.target_limits (legal : p.Legal) (target : VarIntField) :
    ¬(target.id = idAckDelayExponent ∧ 20 < p.load target) ∧
    ¬(target.id = idMaxAckDelay ∧ 16384 ≤ p.load target) ∧
    ¬(target.id = idActiveConnectionIdLimit ∧ p.load target < 2) ∧
    ¬(target.id = idMaxUdpPayloadSize ∧ p.load target < 1200) := by
  have ack := legal.ackDelayExponent
  have delay := legal.maxAckDelay
  have ids := legal.connectionIds
  have payload := legal.udpPayload
  cases target <;>
    simp only [VarIntField.id, idAckDelayExponent, idMaxAckDelay, idActiveConnectionIdLimit,
      idMaxUdpPayloadSize, load, idMaxIdleTimeout, idInitialMaxData,
      idInitialMaxStreamDataBidiLocal, idInitialMaxStreamDataBidiRemote, idInitialMaxStreamDataUni,
      idInitialMaxStreamsBidi, idInitialMaxStreamsUni, idMaxDatagramFrameSize] <;> omega

theorem applyDecoded_varInt (legal : p.Legal) (q : QuicTransportParameters) :
    q.applyDecoded target.id (varIntBytes (p.load target)) =
      .ok (q.store (p.load target) target) := by
  obtain ⟨exponent, delay, ids, payload⟩ := legal.target_limits target
  unfold applyDecoded
  rw [if_neg (by cases target <;> decide), if_neg (by cases target <;> decide),
    if_neg (by cases target <;> decide), if_neg (by cases target <;> decide),
    if_neg (by cases target <;> decide), if_neg (by cases target <;> decide),
    varIntTarget_eq_some.mpr rfl]
  dsimp only
  rw [decodeVarInt_varIntBytes (legal.varInts target)]
  dsimp only
  rw [if_neg (not_not.mpr rfl), if_neg exponent, if_neg delay, if_neg ids, if_neg payload]

theorem Describes.applies (describes : Describes p true param) (legal : p.Legal)
    (q : QuicTransportParameters) :
    ∃ applied, q.applyDecoded param.entry.1 param.entry.2 = .ok applied := by
  cases describes with
  | @bytes id _ value listed said =>
    simp only [byteIds, mem_cons, not_mem_nil, or_false] at listed
    obtain rfl | rfl | rfl | rfl := listed
    · exact ⟨_, rfl⟩
    · obtain ⟨present, rfl⟩ := Setting.bytes.inj said
      exact ⟨_, if_neg (not_not.mpr (legal.token present))⟩
    · exact ⟨_, rfl⟩
    · exact ⟨_, rfl⟩
  | varInt target _ => exact ⟨_, applyDecoded_varInt legal q⟩
  | @empty id _ listed said =>
    simp only [flagIds, mem_cons, not_mem_nil, or_false] at listed
    obtain rfl | rfl := listed
    · exact ⟨_, rfl⟩
    · exact ⟨_, rfl⟩

theorem Describes.spelled_eq (describes : Describes p true param)
    (legal : p.Legal) : spelled param.entry.1 param.entry.2 = p.setting param.entry.1 := by
  cases describes with
  | @bytes id _ value listed said =>
    simp only [byteIds, mem_cons, not_mem_nil, or_false] at listed
    obtain rfl | rfl | rfl | rfl := listed
    all_goals exact said.symm
  | varInt target _ =>
    unfold Param.entry spelled
    dsimp only
    rw [setting_id, setting_id, decodeVarInt_varIntBytes (legal.varInts target)]
  | @empty id _ listed said =>
    simp only [flagIds, mem_cons, not_mem_nil, or_false] at listed
    obtain rfl | rfl := listed
    all_goals exact said.symm

/-- A row that is not written says what it says by default. -/
theorem Describes.default_eq (describes : Describes p false param)
    (legal : p.Legal) : p.setting param.entry.1 = setting {} param.entry.1 := by
  cases describes with
  | @bytes id _ value listed said =>
    simp only [byteIds, mem_cons, not_mem_nil, or_false] at listed
    obtain rfl | rfl | rfl | rfl := listed
    all_goals
      refine said.trans ?_
      obtain ⟨absent, rfl⟩ := Setting.bytes.inj said
    · rw [legal.noOriginalId absent]
      rfl
    · rw [legal.noToken absent]
      rfl
    · rw [legal.noInitialId absent]
      rfl
    · rw [legal.noRetryId absent]
      rfl
  | varInt target same =>
    have byDefault : p.load target = load {} target := by simpa using same.symm
    unfold Param.entry
    dsimp only
    rw [setting_id, setting_id, byDefault]
  | @empty id _ listed said =>
    simp only [flagIds, mem_cons, not_mem_nil, or_false] at listed
    obtain rfl | rfl := listed
    all_goals exact said

theorem setting_unknown (p : QuicTransportParameters)
    (unlisted : id ∉ p.params.map fun row => row.2.entry.1) : p.setting id = .unknown := by
  rw [params_ids] at unlisted
  simp only [mem_cons, not_mem_nil, or_false, not_or] at unlisted
  obtain ⟨h00, h01, h02, h03, h04, h05, h06, h07, h08, h09, h0a, h0b, h0c, h0e, h0f, h10, h1d,
    h20⟩ := unlisted
  have unfound : varIntTarget id = none := by
    cases found : varIntTarget id with
    | none => rfl
    | some target =>
      have same := varIntTarget_eq_some.mp found
      cases target <;> exact absurd same.symm (by assumption)
  unfold setting
  rw [if_neg h00, if_neg h02, if_neg h0f, if_neg h10, if_neg h0c, if_neg h1d, unfound]

theorem setting_default (legal : p.Legal) (unwritten : id ∉ p.entries.map Prod.fst) :
    p.setting id = setting {} id := by
  by_cases listed : id ∈ p.params.map fun row => row.2.entry.1
  · obtain ⟨⟨present, param⟩, row, rfl⟩ := mem_map.mp listed
    cases present with
    | false => exact (params_describe p _ row).default_eq legal
    | true =>
      have kept : param ∈ p.written :=
        mem_map.mpr ⟨_, mem_filter.mpr ⟨row, rfl⟩, rfl⟩
      exact absurd (mem_map_of_mem (mem_map_of_mem kept)) unwritten
  · rw [setting_unknown p listed, setting_unknown {} (by rwa [params_ids] at listed ⊢)]

variable {entries : List (Nat × Bytes)}

theorem setting_foldlM
    (ran : entries.foldlM (fun p entry => applyDecoded p entry.1 entry.2) q = .ok r)
    (unwritten : other ∉ entries.map Prod.fst) :
    r.setting other = q.setting other := by
  induction entries generalizing q with
  | nil =>
    cases ran
    rfl
  | cons entry entries ih =>
    rw [map_cons, mem_cons, not_or] at unwritten
    rw [foldlM_cons] at ran
    cases applied : q.applyDecoded entry.1 entry.2 with
    | error failure =>
      rw [applied] at ran
      cases ran
    | ok next =>
      rw [applied] at ran
      rw [ih ran unwritten.2, setting_applyDecoded applied, if_neg unwritten.1]

theorem step_foldlM
    (ran : (((id, value) :: entries).foldlM (fun p entry => applyDecoded p entry.1 entry.2) q) =
      .ok r) :
    ∃ applied, q.applyDecoded id value = .ok applied ∧
      entries.foldlM (fun p entry => applyDecoded p entry.1 entry.2) applied = .ok r := by
  rw [foldlM_cons] at ran
  cases applied : q.applyDecoded id value with
  | error failure =>
    rw [applied] at ran
    cases ran
  | ok next =>
    rw [applied] at ran
    exact ⟨next, rfl, ran⟩

theorem setting_of_foldlM
    (ran : entries.foldlM (fun p entry => applyDecoded p entry.1 entry.2) q = .ok r)
    (distinct : (entries.map Prod.fst).Nodup) :
    ∀ entry ∈ entries, r.setting entry.1 = spelled entry.1 entry.2 := by
  induction entries generalizing q with
  | nil => simp
  | cons entry entries ih =>
    rw [map_cons, nodup_cons] at distinct
    obtain ⟨applied, first, rest⟩ := step_foldlM ran
    intro other member
    rcases mem_cons.mp member with rfl | later
    · rw [setting_foldlM rest distinct.1, setting_applyDecoded first, if_pos rfl]
    · exact ih rest distinct.2 other later

theorem foldlM_total (legal : p.Legal)
    (described : ∀ param ∈ written, Describes p true param) (q : QuicTransportParameters) :
    ∃ r, (written.map Param.entry).foldlM (fun p entry => applyDecoded p entry.1 entry.2) q =
      .ok r := by
  induction written generalizing q with
  | nil => exact ⟨q, rfl⟩
  | cons param written ih =>
    obtain ⟨applied, first⟩ := (described param mem_cons_self).applies legal q
    obtain ⟨r, rest⟩ := ih (fun other member => described other (mem_cons_of_mem _ member))
      applied
    rw [map_cons, foldlM_cons, first]
    exact ⟨r, rest⟩

theorem foldlM_entries (legal : p.Legal) :
    p.entries.foldlM (fun p entry => applyDecoded p entry.1 entry.2) {} = .ok p := by
  obtain ⟨r, ran⟩ := foldlM_total legal (fun _ => mem_written) ({} : QuicTransportParameters)
  have same : r = p := by
    refine setting_ext fun id => ?_
    by_cases written : id ∈ p.entries.map Prod.fst
    · obtain ⟨entry, member, rfl⟩ := mem_map.mp written
      have said := setting_of_foldlM ran p.nodup_entries entry member
      obtain ⟨param, kept, rfl⟩ := mem_map.mp member
      exact said.trans ((mem_written kept).spelled_eq legal)
    · rw [setting_foldlM ran written, setting_default legal written]
  rw [← same] at ran ⊢
  exact ran

variable {offset length : Nat}

theorem readValue_eq (complete : offset + length ≤ bytes.length) :
    readValue length bytes offset = .ok (foundAt bytes offset length, offset + length) := by
  obtain ⟨field, found⟩ := mid_total bytes (toInt offset) (toInt length)
  unfold readValue foundAt
  rw [if_neg (by omega), found]
  rfl

theorem readParameter_entry {before after : Bytes} (small : id ≤ maxVarInt)
    (fits : value.length ≤ maxVarInt)
    (whole : bytes = before ++ (entryBytes (id, value) ++ after)) :
    readParameter bytes before.length =
      let start := before.length + (varIntBytes id).length + (varIntBytes value.length).length
      .ok ((id, foundAt bytes start value.length), start + value.length) := by
  have first := @decodeVarInt_yields before _ _ (varIntBytes_eq small)
    (varIntBytes value.length ++ value ++ after)
  have second := @decodeVarInt_yields (before ++ varIntBytes id) _ _ (varIntBytes_eq fits)
    (value ++ after)
  have split : bytes =
      before ++ (varIntBytes id ++ (varIntBytes value.length ++ value ++ after)) := by
    rw [whole]
    simp only [entryBytes, append_assoc]
  have again : bytes =
      (before ++ varIntBytes id) ++ (varIntBytes value.length ++ (value ++ after)) := by
    rw [split]
    simp only [append_assoc]
  have length := congrArg List.length split
  simp only [length_append] at length
  rw [← split] at first
  rw [← again] at second
  unfold readParameter
  rw [Cursor.bind_apply, first]
  dsimp only [Except.map, Except.bind]
  rw [Cursor.bind_apply, second]
  dsimp only [Except.map, Except.bind]
  rw [Cursor.bind_apply, readValue_eq]
  · simp only [length_append]
    rw [Except.bind, Cursor.pure_apply]
  · clear small fits
    simp only [length_append]
    omega

theorem decodeLoop_entries {fuel : Nat} (small : ∀ entry ∈ entries, entry.1 ≤ maxVarInt)
    (fits : ∀ entry ∈ entries, entry.2.length ≤ maxVarInt) (enough : entries.length ≤ fuel)
    (before : Bytes) (whole : bytes = before ++ entries.flatMap entryBytes) :
    decodeLoop bytes fuel before.length q =
      (foundEntries bytes before.length entries).foldlM
        (fun p entry => applyDecoded p entry.1 entry.2) q := by
  induction entries generalizing fuel before q with
  | nil =>
    have ended : bytes.length ≤ before.length := by
      rw [whole, flatMap_nil, append_nil]
    cases fuel <;> exact if_pos ended
  | cons entry entries ih =>
    obtain ⟨id, value⟩ := entry
    obtain ⟨fuel, rfl⟩ := Nat.exists_eq_add_of_le' (show 1 ≤ fuel from
      le_trans (by simp) enough)
    rw [flatMap_cons] at whole
    have read := readParameter_entry (small _ mem_cons_self) (fits _ mem_cons_self) whole
    have begun : before.length < bytes.length := by
      have positive := entryBytes_length (small _ mem_cons_self)
      rw [whole, length_append, length_append]
      omega
    rw [decodeLoop, if_neg (not_le.mpr begun), read, foundEntries, foldlM_cons]
    dsimp only
    cases applied : q.applyDecoded id (foundAt bytes (before.length + (varIntBytes id).length +
        (varIntBytes value.length).length) value.length) with
    | error failure => rfl
    | ok next =>
      have further := @ih next fuel
        (fun other member => small other (mem_cons_of_mem _ member))
        (fun other member => fits other (mem_cons_of_mem _ member)) (by simpa using enough)
        (before ++ entryBytes (id, value)) (by rw [whole, append_assoc])
      have position : (before ++ entryBytes (id, value)).length = before.length +
          (varIntBytes id).length + (varIntBytes value.length).length + value.length := by
        simp only [entryBytes, length_append]
        omega
      rw [position] at further
      exact further

theorem decodeLoop_text (fits : ∀ entry ∈ p.entries, entry.2.length ≤ maxVarInt) :
    decodeLoop p.text p.text.length 0 {} =
      (foundEntries p.text 0 p.entries).foldlM
        (fun p entry => applyDecoded p entry.1 entry.2) {} := by
  have small : ∀ entry ∈ p.entries, entry.1 ≤ maxVarInt := by
    intro entry member
    obtain ⟨param, kept, rfl⟩ := mem_map.mp member
    exact (mem_written kept).small
  have enough : p.entries.length ≤ p.text.length := by
    refine Cursor.length_le_flatMap_of_ne_nil fun entry kept empty => ?_
    have positive := entryBytes_length (small entry kept)
    rw [empty] at positive
    exact absurd positive (lt_irrefl 0)
  exact decodeLoop_entries small fits enough [] rfl

theorem length_foundAt (inside : offset + length ≤ bytes.length) (short : length ≤ 8) :
    (foundAt bytes offset length).length = length := by
  have small : length ≤ maxInt := short.trans (by decide)
  have before := sanitizePosition_toInt offset bytes.length
  unfold foundAt
  rw [mid_toInt inside small, Option.getD_some, length_take, length_drop]
  omega

theorem foundEntries_of_short (small : bytes.length ≤ maxInt) (before : Bytes)
    (whole : bytes = before ++ entries.flatMap entryBytes) :
    foundEntries bytes before.length entries = entries := by
  induction entries generalizing before with
  | nil => rfl
  | cons entry entries ih =>
    obtain ⟨id, value⟩ := entry
    rw [flatMap_cons] at whole
    have rest := ih (before ++ entryBytes (id, value)) (by rw [whole, append_assoc])
    have split : bytes = (before ++ varIntBytes id ++ varIntBytes value.length) ++
        (value ++ entries.flatMap entryBytes) := by
      rw [whole]
      simp only [entryBytes, append_assoc]
    have short :
        (before ++ varIntBytes id ++ varIntBytes value.length ++ value).length ≤ maxInt := by
      rw [split, ← append_assoc, length_append] at small
      omega
    have here := @foundAt_eq _ _ (entries.flatMap entryBytes) short
    rw [← split, length_append, length_append] at here
    have position : (before ++ entryBytes (id, value)).length = before.length +
        (varIntBytes id).length + (varIntBytes value.length).length + value.length := by
      simp only [entryBytes, length_append]
      omega
    rw [position] at rest
    rw [foundEntries, here, rest]

theorem findable_of_short (small : p.text.length ≤ maxInt) : p.Findable := by
  refine ⟨fun entry member => ?_, foundEntries_of_short small [] rfl⟩
  obtain ⟨before, after, split⟩ := append_of_mem member
  have limit : maxInt ≤ maxVarInt := by decide
  unfold text at small
  rw [split, flatMap_append, flatMap_cons, entryBytes] at small
  simp only [length_append] at small
  omega

theorem foundEntries_ids (bytes : Bytes) (offset : Nat) (entries : List (Nat × Bytes)) :
    (foundEntries bytes offset entries).map Prod.fst = entries.map Prod.fst := by
  induction entries generalizing offset with
  | nil => rfl
  | cons entry entries ih => exact congrArg (entry.1 :: ·) (ih _)

theorem Describes.short (describes : Describes p true param) (legal : p.Legal)
    (target : VarIntField) (same : param.entry.1 = target.id) : param.entry.2.length ≤ 8 := by
  cases describes with
  | @bytes id _ value listed said =>
    obtain rfl : id = target.id := same
    exact absurd listed (by cases target <;> decide)
  | varInt target _ => exact (varIntBytes_length (legal.varInts target)).2
  | empty listed said => exact Nat.zero_le 8

theorem Describes.known (describes : Describes p true param) :
    p.setting param.entry.1 ≠ .unknown := by
  cases describes with
  | bytes listed said =>
    intro unknown
    cases said.symm.trans unknown
  | varInt target _ =>
    intro unknown
    cases (setting_id p target).symm.trans unknown
  | empty listed said =>
    intro unknown
    cases said.symm.trans unknown

/-- Decoding that ends with the parameters themselves has found every value. -/
theorem foundEntries_of_foldlM (legal : p.Legal)
    (described : ∀ param ∈ written, Describes p true param)
    (distinct : ((written.map Param.entry).map Prod.fst).Nodup) (before : Bytes)
    (whole : bytes = before ++ (written.map Param.entry).flatMap entryBytes)
    (ran : (foundEntries bytes before.length (written.map Param.entry)).foldlM
      (fun p entry => applyDecoded p entry.1 entry.2) q = .ok p) :
    foundEntries bytes before.length (written.map Param.entry) = written.map Param.entry := by
  induction written generalizing before q with
  | nil => rfl
  | cons param written ih =>
    have describes := described param mem_cons_self
    rw [map_cons] at distinct whole ran ⊢
    obtain ⟨id, value, entry⟩ : ∃ id value, param.entry = (id, value) := ⟨_, _, rfl⟩
    have short := describes.short legal
    have known := describes.known
    have meant := describes.spelled_eq legal
    obtain ⟨_, accepted⟩ := describes.applies legal {}
    rw [entry] at short known meant accepted distinct whole ran ⊢
    rw [map_cons, nodup_cons] at distinct
    obtain ⟨applied, first, rest⟩ := step_foldlM ran
    rw [flatMap_cons] at whole
    have position : (before ++ entryBytes (id, value)).length = before.length +
        (varIntBytes id).length + (varIntBytes value.length).length + value.length := by
      simp only [entryBytes, length_append]
      omega
    have tail := ih (fun other member => described other (mem_cons_of_mem _ member))
      distinct.2 (before ++ entryBytes (id, value)) (by rw [whole, append_assoc])
      (by rw [position]; exact rest)
    rw [position] at tail
    -- nothing after it overwrites the value found under this id
    have said := setting_foldlM rest (by rw [foundEntries_ids]; exact distinct.1)
    rw [setting_applyDecoded first, if_pos rfl] at said
    have inside := congrArg List.length whole
    have head : foundAt bytes (before.length + (varIntBytes id).length +
        (varIntBytes value.length).length) value.length = value := by
      refine (spells_of_applyDecoded first).unique ?_ (said ▸ known) fun target same => ?_
      · rw [← said, ← meant]
        exact spells_of_applyDecoded accepted
      · refine length_foundAt ?_ (short target same)
        rw [inside]
        simp only [entryBytes, length_append]
        omega
    rw [foundEntries, head, tail]

theorem roundTrips_iff_findable (legal : p.Legal) : p.RoundTrips ↔ p.Findable := by
  constructor
  · rintro ⟨bytes, encoded, back⟩
    have fits := fits_of_encode encoded
    rw [encode_eq legal fits] at encoded
    cases encoded
    refine ⟨fits, ?_⟩
    have decoded := back {}
    unfold decode at decoded
    rw [decodeLoop_text fits] at decoded
    split at decoded
    · rename_i ran
      obtain ⟨_, rfl⟩ := Prod.mk.inj decoded
      exact foundEntries_of_foldlM legal (fun _ => mem_written) (nodup_entries _) [] rfl ran
    · cases decoded
  · rintro ⟨fits, found⟩
    refine ⟨_, encode_eq legal fits, fun out => ?_⟩
    unfold decode
    rw [decodeLoop_text fits, found, foldlM_entries legal]

theorem readValue_keeps (length : Nat) :
    (readValue length).Keeps 0 DecodeFailure.IsError fun _ => True := by
  constructor
  · intro input offset value next inside read
    unfold readValue at read
    split at read
    · cases read
    · rename_i complete
      obtain ⟨field, found⟩ := mid_total input (toInt offset) (toInt length)
      rw [found] at read
      cases read
      exact ⟨by omega, by omega, trivial⟩
  · intro input offset failure inside read
    unfold readValue at read
    split at read
    · cases read
      trivial
    · obtain ⟨field, found⟩ := mid_total input (toInt offset) (toInt length)
      rw [found] at read
      cases read

theorem readParameter_keeps : readParameter.Keeps 1 DecodeFailure.IsError fun _ => True := by
  have value : ∀ id length, (readValue length >>= fun value => pure (id, value)).Keeps 0
      DecodeFailure.IsError fun _ : Nat × Bytes => True :=
    fun _ length => (readValue_keeps length).bind fun _ _ => .pure trivial
  exact (decodeVarInt_keeps.bind fun id _ => decodeVarInt_keeps.bind fun length _ =>
    value id length).weaken (by decide) fun _ held => held

variable {failure : DecodeFailure}

theorem applyDecoded_failed
    (failed : p.applyDecoded id value = .error failure) : failure.IsError := by
  revert failed
  fun_cases applyDecoded p id value <;> intro failed <;> cases failed <;> try trivial
  case case11 failed => exact decodeVarInt_keeps.failed (Nat.zero_le _) failed

theorem decodeLoop_failed (enough : bytes.length ≤ offset + fuel)
    (failed : decodeLoop bytes fuel offset p = .error failure) : failure.IsError := by
  induction fuel generalizing offset p with
  | zero =>
    rw [decodeLoop, if_pos (show bytes.length ≤ offset from enough)] at failed
    cases failed
  | succ fuel ih =>
    rw [decodeLoop] at failed
    split at failed
    · cases failed
    rename_i more
    rcases read : readParameter bytes offset with problem | ⟨⟨id, value⟩, next⟩
    · rw [read] at failed
      cases failed
      exact readParameter_keeps.failed (by omega) read
    · rw [read] at failed
      dsimp only at failed
      obtain ⟨moved, _, _⟩ := readParameter_keeps.read (by omega) read
      split at failed
      · rename_i refused
        cases failed
        exact applyDecoded_failed refused
      · exact ih (by omega) failed

theorem decode_failed {out : QuicTransportParameters}
    (failed : (decode bytes out).1 = some failure) :
    (decode bytes out).2 = out ∧ failure.IsError := by
  unfold decode at failed ⊢
  split at failed
  · cases failed
  · rename_i problem
    cases failed
    exact ⟨rfl, decodeLoop_failed (by omega) problem⟩

/-- Legal parameters come back exactly when each value is found where it was written, as in any
text of fewer than 2^31 bytes; an input that fails leaves the output as it was. -/
theorem transportParameters_roundTrip_iff (legal : p.Legal) :
    (p.RoundTrips ↔ p.Findable) ∧ (p.text.length ≤ maxInt → p.RoundTrips) ∧
    ∀ (bytes : Bytes) (out : QuicTransportParameters) (failure : DecodeFailure),
      (decode bytes out).1 = some failure → (decode bytes out).2 = out ∧ failure.IsError :=
  ⟨roundTrips_iff_findable legal,
    fun small => (roundTrips_iff_findable legal).mpr (findable_of_short small),
    fun _ _ _ => decode_failed⟩

theorem roundTrip_of_client :
    RoundTrips { maxIdleTimeoutMs := 30000, initialMaxData := 1048576, maxAckDelayMs := 20
                 disableActiveMigration := true, initialSourceConnectionId := [7, 8, 9]
                 hasInitialSourceConnectionId := true } := by
  have legal : Legal { maxIdleTimeoutMs := 30000, initialMaxData := 1048576, maxAckDelayMs := 20
                       disableActiveMigration := true, initialSourceConnectionId := [7, 8, 9]
                       hasInitialSourceConnectionId := true } := by
    constructor
    · intro target
      cases target <;> decide
    all_goals decide
  exact (transportParameters_roundTrip_iff legal).2.1 (by decide)

theorem legal_retry (connectionId : Bytes) : Legal
    { retrySourceConnectionId := connectionId, hasRetrySourceConnectionId := true } := by
  constructor
  · intro target
    cases target <;> simp [load, maxVarInt]
  all_goals simp

theorem toInt_of_wrapped (wrapped : length = 2 ^ 32) : toInt length = 0 := by
  unfold toInt
  rw [Int.bmod_def]
  split
  · omega
  · omega

theorem foundAt_of_zero (cast : toInt length = 0) : foundAt bytes offset length = [] := by
  unfold foundAt mid Types.slice
  dsimp only
  rw [cast, if_neg (lt_irrefl 0), Int.toNat_zero, Nat.zero_min, Nat.add_zero]
  split
  · rw [Option.getD_some, take_zero]
  · rfl

/-- A connection id of 2^32 bytes comes back empty. -/
theorem roundTrip_fails_of_length : ¬∀ p : QuicTransportParameters, p.Legal → p.RoundTrips := by
  intro roundTrip
  obtain ⟨count, size⟩ : ∃ count, count = 2 ^ 32 := ⟨_, rfl⟩
  have legal := legal_retry (List.replicate count 0)
  obtain ⟨_, found⟩ := (roundTrips_iff_findable legal).mp (roundTrip _ legal)
  have entry : entries { retrySourceConnectionId := List.replicate count 0
                         hasRetrySourceConnectionId := true } =
      [(idRetrySourceConnectionId, List.replicate count 0)] := rfl
  rw [entry, foundEntries, foundEntries, length_replicate] at found
  have value := (Prod.mk.inj (List.cons.inj found).1).2
  have length := congrArg List.length ((foundAt_of_zero (toInt_of_wrapped size)).symm.trans value)
  rw [length_replicate, length_nil] at length
  clear entry found value legal roundTrip
  omega

end SwStack.Quic.QuicTransportParameters
