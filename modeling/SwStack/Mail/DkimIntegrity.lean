import SwStack.Mail.DkimFront

/-! What the verifier answers about a signature of the signer, for whatever message carries it: it
passes exactly when the body hash and the signed input are those of the signature. -/
open List

namespace SwStack.Mail

open SwStack.Lib SwStack.Types

/-- The relaxed canonical form of the last occurrence of a field. -/
def canonicalField (raw name : Bytes) : Option Bytes :=
  (headerOccurrences raw name).getLast?.map (canonicalizeHeaderLineRelaxed name)

theorem takeField_new (signed : SignedName name) (raw : Bytes) (new : taken.find? name = none)
    (out : Bytes) :
    ∃ left, takeField raw (taken, out) name =
      (taken.insert name left, out ++ (canonicalField raw name).getD []) := by
  rw [takeField, signed.text.cString, canonicalField]
  dsimp only
  rw [new, Option.getD_none]
  cases values : headerOccurrences raw name using List.reverseRecOn with
  | nil => exact ⟨0, by rw [getLast?_nil, Option.map_none, Option.getD_none, append_nil]; rfl⟩
  | append_singleton before last =>
    refine ⟨before.length, ?_⟩
    rw [length_append, length_singleton, getLast?_concat, Option.map_some,
      Option.getD_some]
    dsimp only
    rw [getD_append_right _ _ _ _ (Nat.le_refl _), Nat.sub_self]
    rfl

/-- Names that are listed once each bring their last occurrence. -/
theorem foldl_takeField {names : List Bytes} (signed : ∀ name ∈ names, SignedName name)
    (distinct : names.Nodup) (raw : Bytes) {taken : SortedMap Bytes Nat}
    (new : ∀ name ∈ names, taken.find? name = none) (out : Bytes) :
    (names.foldl (takeField raw) (taken, out)).2 =
      out ++ names.flatMap fun name => (canonicalField raw name).getD [] := by
  induction names generalizing taken out with
  | nil => exact (append_nil out).symm
  | cons name names ih =>
    obtain ⟨here, others⟩ := forall_mem_cons.mp signed
    obtain ⟨apart, distinct⟩ := nodup_cons.mp distinct
    obtain ⟨fresh, rest⟩ := forall_mem_cons.mp new
    obtain ⟨left, step⟩ := takeField_new here raw fresh out
    have still : ∀ other ∈ names, (taken.insert name left).find? other = none := by
      intro other member
      rw [SortedMap.find?_insert, if_neg]
      · exact rest other member
      · rintro rfl
        exact apart member
    rw [foldl_cons, step, ih others distinct still, flatMap_cons, append_assoc]

theorem canonicalField_headerNames (member : name ∈ headerNames (parseHeaders raw)) :
    canonicalField raw name = some (canonicalizeHeaderLineRelaxed (SwString.toLower name)
      (((parseHeaders raw).find? (SwString.toLower name)).getD [])) := by
  obtain ⟨listed, contained⟩ := mem_headerNames member
  have field := (signedName listed).field
  rw [SortedMap.contains, Option.isSome_iff_exists] at contained
  obtain ⟨value, found⟩ := contained
  rw [field.lower, found, canonicalField, ← parseHeaders_find? field, found]
  rfl

/-- The canonical fields of the names that are listed. -/
def fieldLines (raw : Bytes) (names : List Bytes) : Bytes :=
  names.flatMap fun name => (canonicalField raw name).getD []

/-- The signature field as it enters the signed input. -/
def signatureLine (crypto : Crypto) (moment : Moment) (record : DkimRecord) (raw : Bytes) :
    Bytes :=
  withoutLineEnd (canonicalizeHeaderLineRelaxed (ascii "dkim-signature")
    (signingHeader crypto moment record raw))

section

variable {crypto : Crypto} {moment : Moment} {record : DkimRecord} {raw signature : Bytes}

theorem signingInput_eq : signingInput crypto moment record raw =
    fieldLines raw (headerNames (parseHeaders raw)) ++
      signatureLine crypto moment record raw := by
  have lower : SwString.toLower (ascii "DKIM-Signature") =
      SwString.toLower (ascii "dkim-signature") := by decide
  have lines : canonicalizeHeaders (parseHeaders raw) (headerNames (parseHeaders raw)) =
      fieldLines raw (headerNames (parseHeaders raw)) := by
    refine flatMap_congr fun name member => ?_
    rw [canonicalField_headerNames member]
    rfl
  rw [signingInput, lines, signatureLine, canonicalizeHeaderLineRelaxed,
    canonicalizeHeaderLineRelaxed, lower]

theorem buildSigningInput_eq (named : record.Named)
    (nonempty : headerNames (parseHeaders raw) ≠ []) (message : Bytes) :
    buildSigningInput message (headerList (headerNames (parseHeaders raw)))
        (signatureValue crypto moment record raw signature) =
      fieldLines message (headerNames (parseHeaders raw)) ++
        signatureLine crypto moment record raw := by
  rw [buildSigningInput, listedNames_headerList signedName_headerNames nonempty,
    foldl_takeField signedName_headerNames (headerNames_nodup _) message fun _ _ => rfl,
    nil_append, emptyBTag_signatureValue named]
  rfl

/-- Where the key is published. -/
def keyHost (record : DkimRecord) : Bytes :=
  SwString.toLower record.selector ++ ascii "._domainkey." ++
    stripTrailing (· = 0x2e) (SwString.toLower record.domain)

theorem signature_tag (named : record.Named) {key : String} {value : Bytes}
    (found : (((signatureTags record moment.epochMs (headerNames (parseHeaders raw))
      (computeBodyHashRelaxed crypto raw) (base64Encode signature)).reverse.find?
        (·.name = ascii key)).map Tag.value).getD [] = value) :
    getTag (parseTags (signatureValue crypto moment record raw signature)) key = value := by
  rw [signatureValue_tags, getTag_signature named _ signedName_headerNames
    (isTagText_bodyHash crypto raw) (isTagText_base64 signature)]
  exact found

theorem keyTags (der : Bytes) :
    getTag (parseTags (ascii "v=DKIM1; k=rsa; p=" ++ base64Encode der)) "p" = base64Encode der ∧
      getTag (parseTags (ascii "v=DKIM1; k=rsa; p=" ++ base64Encode der)) "k" = ascii "rsa" := by
  have text : ascii "v=DKIM1; k=rsa; p=" ++ base64Encode der =
      tagList [{ lead := ascii "v", name := ascii "v", value := ascii "DKIM1" },
        { lead := ascii " k", name := ascii "k", value := ascii "rsa" },
        { lead := ascii " p", name := ascii "p", value := base64Encode der }] := by
    have fixed : ascii "v=DKIM1; k=rsa; p=" = ascii "v" ++ 0x3d :: ascii "DKIM1" ++ [0x3b] ++
        (ascii " k" ++ 0x3d :: ascii "rsa") ++ [0x3b] ++ (ascii " p" ++ [0x3d]) := by
      decide +kernel
    rw [fixed, tagList]
    simp only [map_cons, map_nil, Tag.segment, intercalate_cons_cons,
      intercalate_singleton, append_assoc, cons_append, nil_append]
  have version : IsTagText (ascii "DKIM1") := by
    unfold IsTagText
    decide +kernel
  have algorithm : IsTagText (ascii "rsa") := by
    unfold IsTagText
    decide +kernel
  have reads : ∀ tag ∈ [{ lead := ascii "v", name := ascii "v", value := ascii "DKIM1" },
      { lead := ascii " k", name := ascii "k", value := ascii "rsa" },
      { lead := ascii " p", name := ascii "p", value := base64Encode der }], Tag.Reads tag := by
    simp only [forall_mem_cons]
    exact ⟨reads_of_lead (by decide) version, reads_of_lead (by decide) algorithm,
      reads_of_lead (by decide) (isTagText_base64 der), forall_mem_nil _⟩
  rw [text, getTag, getTag, find?_parseTags reads (cons_ne_nil _ _),
    find?_parseTags reads (cons_ne_nil _ _)]
  constructor
  · rfl
  · rfl

theorem toLower_toLower (text : Bytes) :
    SwString.toLower (SwString.toLower text) = SwString.toLower text := by
  have letters : ∀ code < 256, SwString.lowerByte (SwString.lowerByte (UInt8.ofNat code)) =
      SwString.lowerByte (UInt8.ofNat code) := by decide +kernel
  rw [SwString.toLower, SwString.toLower, map_map]
  refine map_congr_left fun byte _ => ?_
  have lowered := letters byte.toNat byte.toNat_lt
  rwa [UInt8.ofNat_toNat] at lowered

theorem IsTagText.stripTrailing (tag : IsTagText text) (blank : UInt8 → Bool) :
    IsTagText (stripTrailing blank text) := by
  intro byte member
  rw [Mail.stripTrailing, mem_reverse] at member
  exact tag byte (mem_reverse.mp ((dropWhile_suffix blank).subset member))

/-- A carried signature passes when the body hash and the signed input are its own. -/
theorem verifyOne_signature (named : record.Named) (nonempty : headerNames (parseHeaders raw) ≠ [])
    (hashed : computeBodyHashRelaxed crypto raw ≠ []) (written : signature ≠ []) {der : Bytes}
    (keyed : der ≠ []) {txtLookup : Bytes → Bytes}
    (published : txtLookup (keyHost record) = ascii "v=DKIM1; k=rsa; p=" ++ base64Encode der)
    (epochMs : Int64) (message : Bytes) :
    (verifyOne crypto epochMs txtLookup message
        (signatureValue crypto moment record raw signature)).result =
      if computeBodyHashRelaxed crypto message = computeBodyHashRelaxed crypto raw ∧
          crypto.verify der (fieldLines message (headerNames (parseHeaders raw)) ++
            signatureLine crypto moment record raw) signature = true then .pass
      else .fail := by
  have tag {key : String} {value : Bytes} := @signature_tag crypto moment record raw signature
    named key value
  have version := @tag "v" (ascii "1") rfl
  have algorithm := @tag "a" (ascii "rsa-sha256") rfl
  have canonicalization := @tag "c" (ascii "relaxed/relaxed") rfl
  have domain := @tag "d" (SwString.toLower record.domain) rfl
  have selector := @tag "s" (SwString.toLower record.selector) rfl
  have listed := @tag "h" (headerList (headerNames (parseHeaders raw))) rfl
  have bodyHash := @tag "bh" (computeBodyHashRelaxed crypto raw) rfl
  have b := @tag "b" (base64Encode signature) rfl
  have expiry := @tag "x" [] rfl
  have domainText := isTagText_toLower named.domain
  have selectorText := isTagText_toLower named.selector
  have required : ¬(stripTrailing (· = 0x2e) (SwString.toLower record.domain) = [] ∨
      SwString.toLower record.selector = [] ∨ computeBodyHashRelaxed crypto raw = [] ∨
        base64Encode signature = [] ∨ headerList (headerNames (parseHeaders raw)) = []) := by
    rw [(headerList_eq signedName_headerNames).2.1]
    rintro (noDomain | noSelector | noHash | noSignature | noNames)
    · exact named.domainSome noDomain
    · exact named.selectorSome (map_eq_nil_iff.mp noSelector)
    · exact hashed noHash
    · exact base64Encode_ne_nil written noSignature
    · exact nonempty noNames
  have key : (txtLookup (SwString.toLower record.selector ++ ascii "._domainkey." ++
      stripTrailing (· = 0x2e) (SwString.toLower record.domain))) =
        ascii "v=DKIM1; k=rsa; p=" ++ base64Encode der := published
  have published_some : ascii "v=DKIM1; k=rsa; p=" ++ base64Encode der ≠ [] :=
    append_ne_nil_of_left_ne_nil (by decide) _
  rw [verifyOne]
  dsimp only
  rw [version, if_neg (not_not.mpr rfl), algorithm, if_neg (by decide), canonicalization,
    if_neg (by decide), domain, selector, listed, bodyHash, b, expiry, toLower_toLower,
    (domainText.stripTrailing _).cString, selectorText.cString,
    (isTagText_bodyHash crypto raw).stripWs, (isTagText_base64 signature).stripWs,
    if_neg required, if_neg (fun expired => expired.1 rfl)]
  by_cases same : computeBodyHashRelaxed crypto message = computeBodyHashRelaxed crypto raw
  · rw [if_neg (not_not.mpr same), key, if_neg published_some, (keyTags der).1, (keyTags der).2,
      (isTagText_base64 der).stripWs, if_neg (base64Encode_ne_nil keyed), if_neg (by decide),
      buildSigningInput_eq named nonempty, rsaVerify, (isTagText_base64 der).cString,
      (isTagText_base64 signature).cString, base64Decode_encode, base64Decode_encode,
      if_neg keyed]
    by_cases verified : crypto.verify der (fieldLines message (headerNames (parseHeaders raw)) ++
        signatureLine crypto moment record raw) signature = true
    · rw [if_pos verified, if_pos ⟨same, verified⟩]
    · rw [if_neg verified, if_neg fun both => verified both.2]
  · rw [if_pos same, if_neg fun both => same both.1]

end

end SwStack.Mail

/-! The signed input tells the canonical fields apart, so that a signature passes for the fields
and the body it was made for and for no others. -/
namespace SwStack.Mail

open SwStack.Lib SwStack.Types

theorem blank_reduceBlanks
    (member : byte ∈ reduceBlanks blank text) : byte = 0x20 ∨ blank byte = false := by
  have step (state : Bytes × Bool) (rest : Bytes)
      (kept : ∀ byte ∈ state.1, byte = 0x20 ∨ blank byte = false) :
      ∀ byte ∈ (rest.foldl (reduceStep blank) state).1, byte = 0x20 ∨ blank byte = false := by
    induction rest generalizing state with
    | nil => exact kept
    | cons first rest ih =>
      rw [foldl_cons]
      refine ih _ ?_
      rw [reduceStep]
      split
      · split
        · exact kept
        · exact forall_mem_append.mpr
            ⟨kept, forall_mem_singleton.mpr (.inl rfl)⟩
      · rename_i visible
        exact forall_mem_append.mpr
          ⟨kept, forall_mem_singleton.mpr (.inr (Bool.not_eq_true _ ▸ visible))⟩
  exact step ([], false) text (forall_mem_nil _) byte member

theorem noReturn_reducedValue (value : Bytes) : 0x0d ∉ reducedValue value := by
  intro member
  rw [reducedValue, stripTrailing, mem_reverse] at member
  have inside := mem_reverse.mp ((dropWhile_suffix _).subset member)
  rcases blank_reduceBlanks ((dropWhile_suffix _).subset inside) with space | visible
  · cases space
  · cases visible

theorem canonicalizeHeaderLineRelaxed_eq (field : FieldName name)
    (value rest : Bytes) : canonicalizeHeaderLineRelaxed name value ++ rest =
      name ++ 0x3a :: (reducedValue value ++ 0x0d :: 0x0a :: rest) := by
  rw [canonicalizeHeaderLineRelaxed, field.lower, crlf]
  simp only [append_assoc, cons_append, nil_append]

theorem canonicalLine_inj (field : FieldName name)
    (same : canonicalizeHeaderLineRelaxed name value ++ rest =
      canonicalizeHeaderLineRelaxed name other ++ rest') :
    canonicalizeHeaderLineRelaxed name value = canonicalizeHeaderLineRelaxed name other ∧
      rest = rest' := by
  rw [canonicalizeHeaderLineRelaxed_eq field, canonicalizeHeaderLineRelaxed_eq field] at same
  have values := (append_mark_inj field.plain field.plain same).2
  obtain ⟨reduced, ended⟩ :=
    append_mark_inj (noReturn_reducedValue value) (noReturn_reducedValue other) values
  injection ended with _ ended
  rw [canonicalizeHeaderLineRelaxed, canonicalizeHeaderLineRelaxed, reduced]
  exact ⟨rfl, ended⟩

theorem signatureLine_eq (crypto : Crypto) (moment : Moment) (record : DkimRecord)
    (raw : Bytes) : signatureLine crypto moment record raw = ascii "dkim-signature" ++
      0x3a :: reducedValue (signingHeader crypto moment record raw) := by
  have ended (line : Bytes) : withoutLineEnd (line ++ crlf) = line := by
    have ending : crlf.isSuffixOf (line ++ crlf) = true :=
      isSuffixOf_iff_suffix.mpr (suffix_append line crlf)
    have length : (line ++ crlf).length = line.length + 2 := length_append
    rw [withoutLineEnd, if_pos ending, length, Nat.add_sub_cancel]
    exact take_left
  rw [signatureLine, canonicalizeHeaderLineRelaxed, ended, fieldName_dkimSignature.lower,
    append_assoc, singleton_append]

/-- Whatever fields are there, the text starts with the name of one of them or of the
signature. -/
theorem fieldLines_front (signed : ∀ name ∈ names, SignedName name) (message value : Bytes) :
    ∃ name rest, (name ∈ names ∨ name = ascii "dkim-signature") ∧ 0x3a ∉ name ∧
      fieldLines message names ++ (ascii "dkim-signature" ++ 0x3a :: value) =
        name ++ 0x3a :: rest := by
  induction names with
  | nil => exact ⟨_, value, .inr rfl, fieldName_dkimSignature.plain, rfl⟩
  | cons name names ih =>
    obtain ⟨here, others⟩ := forall_mem_cons.mp signed
    rw [fieldLines, flatMap_cons, append_assoc, ← fieldLines]
    cases shown : (headerOccurrences message name).getLast? with
    | none =>
      obtain ⟨first, rest, among, plain, same⟩ := ih others
      rw [canonicalField, shown]
      refine ⟨first, rest, ?_, plain, same⟩
      exact among.imp (mem_cons_of_mem _) id
    | some last =>
      rw [canonicalField, shown, Option.map_some, Option.getD_some,
        canonicalizeHeaderLineRelaxed_eq here.field]
      exact ⟨name, _, .inl (mem_cons_self ..), here.field.plain, rfl⟩

/-- The text determines the fields, when the message it was made from has them all. -/
theorem fieldLines_inj (signed : ∀ name ∈ names, SignedName name) (distinct : names.Nodup)
    (present : ∀ name ∈ names, canonicalField raw name ≠ none)
    (same : fieldLines message names ++ (ascii "dkim-signature" ++ 0x3a :: value) =
      fieldLines raw names ++ (ascii "dkim-signature" ++ 0x3a :: value)) :
    ∀ name ∈ names, canonicalField message name = canonicalField raw name := by
  induction names with
  | nil => exact forall_mem_nil _
  | cons name names ih =>
    obtain ⟨here, others⟩ := forall_mem_cons.mp signed
    obtain ⟨apart, distinct⟩ := nodup_cons.mp distinct
    obtain ⟨shown, rest⟩ := forall_mem_cons.mp present
    rw [fieldLines, fieldLines, flatMap_cons, flatMap_cons, append_assoc,
      append_assoc, ← fieldLines, ← fieldLines] at same
    obtain ⟨last, found⟩ := Option.ne_none_iff_exists'.mp shown
    obtain ⟨original, known, rfl⟩ := Option.map_eq_some_iff.mp found
    rw [found, Option.getD_some] at same
    rw [forall_mem_cons]
    cases received : (headerOccurrences message name).getLast? with
    | none =>
      -- the message lacks the field: its text goes on with another name
      exfalso
      rw [canonicalField, received, Option.map_none, Option.getD_none, nil_append,
        canonicalizeHeaderLineRelaxed_eq here.field] at same
      obtain ⟨first, tail, among, plain, front⟩ := fieldLines_front others message value
      rw [front] at same
      obtain ⟨rfl, _⟩ := append_mark_inj plain here.field.plain same
      rcases among with member | own
      · exact apart member
      · exact here.other own
    | some last =>
      have line : canonicalField message name =
          some (canonicalizeHeaderLineRelaxed name last) := by
        rw [canonicalField, received, Option.map_some]
      rw [line, Option.getD_some] at same
      obtain ⟨lines, tails⟩ := canonicalLine_inj here.field same
      rw [line, found, lines]
      exact ⟨rfl, ih others distinct rest tails⟩

/-- A pair of keys: a signature verifies for the input it was made for, and for no other. -/
structure KeyPair (crypto : Crypto) (record : DkimRecord) (der : Bytes) : Prop where
  text : record.publicKeyTxt = ascii "v=DKIM1; k=rsa; p=" ++ base64Encode der
  some : der ≠ []
  written : ∀ input signature, crypto.sign record.privateKeyPem input = .ok signature →
    signature ≠ []
  sound : ∀ input signature, crypto.sign record.privateKeyPem input = .ok signature →
    crypto.verify der input signature = true
  binding : ∀ input other signature, crypto.sign record.privateKeyPem input = .ok signature →
    crypto.verify der other signature = true → other = input

theorem signMessage_ok (signing : signMessage crypto moment (.ok record) message = .ok signed) :
    ∃ signature, computeBodyHashRelaxed crypto (prepared moment message) ≠ [] ∧
      crypto.sign record.privateKeyPem
        (signingInput crypto moment record (prepared moment message)) = .ok signature ∧
      signed = signedMessage crypto moment record (prepared moment message) signature := by
  rw [signMessage] at signing
  split at signing
  · cases signing
  · rename_i hashed
    cases outcome : crypto.sign record.privateKeyPem
        (signingInput crypto moment record (prepared moment message)) with
    | error error =>
      rw [outcome] at signing
      cases signing
    | ok signature =>
      rw [outcome] at signing
      injection signing with same
      refine ⟨signature, hashed, rfl, ?_⟩
      rw [← same, signedMessage, signatureValue, ← append_assoc]

section

variable {crypto : Crypto} {moment : Moment} {record : DkimRecord} {raw signature der : Bytes}

/-- What of the message can change without the signature noticing leaves these alone. -/
theorem passed_unchanged (collisionFree : Function.Injective crypto.sha256)
    (pair : KeyPair crypto record der)
    (signing : crypto.sign record.privateKeyPem (signingInput crypto moment record raw) =
      .ok signature)
    (hashed : computeBodyHashRelaxed crypto message = computeBodyHashRelaxed crypto raw)
    (verified : crypto.verify der (fieldLines message (headerNames (parseHeaders raw)) ++
      signatureLine crypto moment record raw) signature = true) :
    canonicalizeBodyRelaxed message = canonicalizeBodyRelaxed raw ∧
      ∀ name ∈ headerNames (parseHeaders raw),
        canonicalField message name = canonicalField raw name := by
  have input := pair.binding _ _ _ signing verified
  rw [signingInput_eq, signatureLine_eq] at input
  have present : ∀ name ∈ headerNames (parseHeaders raw), canonicalField raw name ≠ none := by
    intro name member
    rw [canonicalField_headerNames member]
    exact Option.some_ne_none _
  exact ⟨collisionFree (base64Encode_injective hashed),
    fieldLines_inj signedName_headerNames (headerNames_nodup _) present input⟩

theorem canonicalizeBodyRelaxed_signed (named : record.Named) (starts : StartsField raw) :
    canonicalizeBodyRelaxed (signedMessage crypto moment record raw signature) =
      canonicalizeBodyRelaxed raw := by
  rw [canonicalizeBodyRelaxed, canonicalizeBodyRelaxed, messageBody_signedMessage named starts]

theorem canonicalField_signed (named : record.Named) (starts : StartsField raw)
    (member : name ∈ headerNames (parseHeaders raw)) :
    canonicalField (signedMessage crypto moment record raw signature) name =
      canonicalField raw name := by
  rw [canonicalField, canonicalField,
    field_occurrences named starts (signedName_headerNames name member)]

end

theorem headerNames_ne_nil (sender : headerOccurrences raw (ascii "from") ≠ []) :
    headerNames (parseHeaders raw) ≠ [] := by
  have listed : ascii "from" ∈ signedHeaderNames := mem_cons_self ..
  have field := (signedName listed).field
  have contained : (parseHeaders raw).contains (SwString.toLower (ascii "from")) = true := by
    rw [field.lower, SortedMap.contains, parseHeaders_find? field, getLast?_isSome]
    exact sender
  exact ne_nil_of_mem (mem_filter.mpr ⟨listed, contained⟩)

/-- The verifier passes the first signature of a signed message. It passes that signature in no
message whose body or whose last occurrence of a listed field has another canonical form. -/
theorem dkim_agreement {crypto : Crypto} (collisionFree : Function.Injective crypto.sha256)
    {record : DkimRecord} (named : record.Named) {der : Bytes} (pair : KeyPair crypto record der)
    {moment : Moment} (line : moment.SingleLine) {message : Bytes} (starts : StartsField message)
    (sender : headerOccurrences (toLineEndingCrlf message) (ascii "from") ≠ []) {signed : Bytes}
    (signing : signMessage crypto moment (.ok record) message = .ok signed)
    {txtLookup : Bytes → Bytes} (published : txtLookup (keyHost record) = record.publicKeyTxt) :
    ∃ field, (headerOccurrences signed (ascii "dkim-signature")).head? = some field ∧
      (∀ epochMs, (verifyMessage crypto epochMs txtLookup signed).head?.map
        DkimSignatureResult.result = some .pass) ∧
      ∀ (tampered : Bytes) (index : Nat) (epochMs : Int64),
        (headerOccurrences tampered (ascii "dkim-signature"))[index]? = some field →
        (canonicalizeBodyRelaxed tampered ≠ canonicalizeBodyRelaxed signed ∨
          ∃ name ∈ listedNames (getTag (parseTags field) "h"),
            canonicalField tampered name ≠ canonicalField signed name) →
        (verifyMessage crypto epochMs txtLookup tampered)[index]?.map
          DkimSignatureResult.result ≠ some .pass := by
  obtain ⟨signature, hashed, made, rfl⟩ := signMessage_ok signing
  have enveloped := prepared_enveloped line message
  have first := starts.toLineEndingCrlf
  have opened := enveloped.starts first
  have nonempty := headerNames_ne_nil (enveloped.occurrences first sender)
  have written := pair.written _ _ made
  have occurrences := @signature_occurrences crypto moment record (prepared moment message)
    signature named written opened
  have answer (epochMs : Int64) (message' : Bytes) := @verifyOne_signature crypto moment record
    (prepared moment message) signature named nonempty hashed written der pair.some txtLookup
    (published.trans pair.text) epochMs message'
  refine ⟨_, by rw [occurrences, head?_cons], ?_, ?_⟩
  · intro epochMs
    have lines : fieldLines (signedMessage crypto moment record (prepared moment message)
        signature) (headerNames (parseHeaders (prepared moment message))) =
          fieldLines (prepared moment message)
            (headerNames (parseHeaders (prepared moment message))) := by
      refine flatMap_congr fun name member => ?_
      rw [canonicalField_signed named opened member]
    have verified := pair.sound _ _ made
    rw [signingInput_eq, ← lines] at verified
    have passed := answer epochMs
      (signedMessage crypto moment record (prepared moment message) signature)
    rw [if_pos ⟨bodyHash_signedMessage named opened, verified⟩] at passed
    rw [verifyMessage, occurrences, kMaxDkimSignatures, take_succ_cons, map_cons,
      head?_cons, Option.map_some, passed]
  · intro tampered index epochMs carried changed reported
    have tag : getTag (parseTags (signatureValue crypto moment record (prepared moment message)
        signature)) "h" = headerList (headerNames (parseHeaders (prepared moment message))) :=
      signature_tag named rfl
    have listed := listedNames_headerList (@signedName_headerNames
      (parseHeaders (prepared moment message))) nonempty
    rw [tag, listed] at changed
    rw [verifyMessage, getElem?_map, getElem?_take] at reported
    split at reported
    · rw [carried, Option.map_some, Option.map_some, answer epochMs tampered] at reported
      split at reported
      · rename_i checked
        obtain ⟨body, fields⟩ := passed_unchanged collisionFree pair made checked.1 checked.2
        rcases changed with otherBody | ⟨name, member, otherField⟩
        · exact otherBody (body.trans (canonicalizeBodyRelaxed_signed named opened).symm)
        · exact otherField ((fields name member).trans
            (canonicalField_signed named opened member).symm)
      · cases reported
    · cases reported

def plainCrypto : Crypto where
  sha256 := id
  sign _ input := .ok (0x31 :: input)
  verify _ input signature := decide (signature = 0x31 :: input)

def sampleRecord : DkimRecord where
  domain := ascii "example.org"
  selector := ascii "swstack"
  privateKeyPem := []
  publicKeyTxt := ascii "v=DKIM1; k=rsa; p=" ++ base64Encode [0x30]

def sampleMoment : Moment where
  messageId := ascii "<msg-1@example.org>"
  date := ascii "Thu, 01 Jan 1970 00:00:00 +0000"
  epochMs := 0

def sampleLookup (_ : Bytes) : Bytes := sampleRecord.publicKeyTxt

def sampleMessage : Bytes := ascii "From: a@example.org\r\n\r\nhello"

def sampleSigned : Bytes :=
  signedMessage plainCrypto sampleMoment sampleRecord (prepared sampleMoment sampleMessage)
    (0x31 :: signingInput plainCrypto sampleMoment sampleRecord
      (prepared sampleMoment sampleMessage))

theorem plainCrypto_keyPair : KeyPair plainCrypto sampleRecord [0x30] where
  text := rfl
  some := cons_ne_nil _ _
  written := by
    rintro input signature signing
    cases signing
    exact cons_ne_nil _ _
  sound := by
    rintro input signature signing
    cases signing
    exact decide_eq_true rfl
  binding := by
    rintro input other signature signing verified
    cases signing
    injection (of_decide_eq_true verified) with _ same
    exact same.symm

theorem sampleMessage_signed :
    signMessage plainCrypto sampleMoment (.ok sampleRecord) sampleMessage = .ok sampleSigned := by
  have hashed : computeBodyHashRelaxed plainCrypto (prepared sampleMoment sampleMessage) ≠ [] := by
    decide +kernel
  rw [signMessage, if_neg hashed]
  dsimp only [plainCrypto]
  rw [sampleSigned, signedMessage, signatureValue, ← append_assoc]
  rfl

theorem dkim_agreement_sample :
    (verifyMessage plainCrypto 0 sampleLookup sampleSigned).head?.map
      DkimSignatureResult.result = some .pass := by
  have named : sampleRecord.Named := by
    refine ⟨?_, ?_, by decide, by decide⟩
    · unfold IsTagText
      decide +kernel
    · unfold IsTagText
      decide +kernel
  have starts : StartsField sampleMessage := ⟨_, _, rfl, by decide⟩
  have published : sampleLookup (keyHost sampleRecord) = sampleRecord.publicKeyTxt := rfl
  obtain ⟨_, _, passed, _⟩ := dkim_agreement (fun _ _ same => same) named plainCrypto_keyPair
    ⟨by decide, by decide⟩ starts (by decide +kernel) sampleMessage_signed published
  exact passed 0

end SwStack.Mail
