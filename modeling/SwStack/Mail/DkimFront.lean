import SwStack.Mail.DkimAgreement

/-! The signed message: its first signature, its other fields and its body are those of the
prepared message with the signature field in front. -/
namespace SwStack.Mail

open SwStack.Lib SwStack.Types List

variable {raw : Bytes}

theorem StartsField.toLineEndingCrlf (starts : StartsField raw) :
    StartsField (toLineEndingCrlf raw) := by
  obtain ⟨byte, rest, rfl, visible⟩ := starts
  have noReturn : byte ≠ 0x0d := by
    rintro rfl
    cases visible
  have noFeed : byte ≠ 0x0a := by
    rintro rfl
    cases visible
  cases rest with
  | nil =>
    rw [Mail.toLineEndingCrlf, if_neg (not_or.mpr ⟨noReturn, noFeed⟩)]
    exact ⟨byte, [], rfl, visible⟩
  | cons next rest =>
    rw [Mail.toLineEndingCrlf, if_neg noReturn, if_neg noFeed]
    exact ⟨byte, _, rfl, visible⟩

/-- What the clock and the id generator give fits on a line. -/
structure Moment.SingleLine (moment : Moment) : Prop where
  messageId : 0x0d ∉ moment.messageId
  date : 0x0d ∉ moment.date

/-- Fields stand in front of the message, and perhaps a line end behind it. -/
inductive Enveloped (raw : Bytes) : Bytes → Prop where
  | message : Enveloped raw raw
  | field {inner : Bytes} (name value : Bytes) (visible : ∃ byte rest, name = byte :: rest ∧
      SwString.isBlank byte = false) (plain : 0x0d ∉ name ++ value) (inside : Enveloped raw inner) :
      Enveloped raw (withField name value inner)
  | ended {inner : Bytes} (inside : Enveloped raw inner) : Enveloped raw (inner ++ crlf)

theorem Enveloped.fieldUnless {inner : Bytes} (inside : Enveloped raw inner)
    (condition : Prop) [Decidable condition] (name value : Bytes)
    (visible : ∃ byte rest, name = byte :: rest ∧ SwString.isBlank byte = false)
    (plain : 0x0d ∉ name) (valuePlain : 0x0d ∉ value) :
    Enveloped raw (if condition then inner else withField name value inner) := by
  split
  · exact inside
  · refine inside.field name value visible ?_
    rw [mem_append, not_or]
    exact ⟨plain, valuePlain⟩

theorem Enveloped.endedIf {inner : Bytes} (inside : Enveloped raw inner)
    (condition : Prop) [Decidable condition] :
    Enveloped raw (if condition then inner ++ crlf else inner) := by
  split
  · exact inside.ended
  · exact inside

theorem prepared_enveloped {moment : Moment} (line : moment.SingleLine) (raw : Bytes) :
    Enveloped (toLineEndingCrlf raw) (prepared moment raw) := by
  rw [prepared, ensureMessageEnvelopeHeaders]
  dsimp only
  rw [if_pos (Or.inr rfl : _ ∨ ([] : List Bytes) = []),
    if_pos (Or.inr rfl : _ ∨ ([] : Bytes) = [])]
  have messageId : Enveloped (toLineEndingCrlf raw) _ :=
    Enveloped.message.fieldUnless
      (hasField (SwString.toLower (toLineEndingCrlf raw)) (ascii "message-id:") = true)
      (ascii "Message-Id: ") moment.messageId ⟨_, _, rfl, by decide⟩ (by decide) line.messageId
  have date := messageId.fieldUnless
    (hasField (SwString.toLower (toLineEndingCrlf raw)) (ascii "date:") = true)
    (ascii "Date: ") moment.date ⟨_, _, rfl, by decide⟩ (by decide) line.date
  exact date.endedIf _

theorem Enveloped.starts (enveloped : Enveloped raw whole)
    (starts : StartsField raw) : StartsField whole := by
  induction enveloped with
  | message => exact starts
  | field name value visible plain inside ih =>
    obtain ⟨byte, rest, rfl, shown⟩ := visible
    exact ⟨byte, rest ++ value ++ crlf ++ _, rfl, shown⟩
  | ended inside ih =>
    obtain ⟨byte, rest, rfl, shown⟩ := ih
    exact ⟨byte, rest ++ crlf, rfl, shown⟩

theorem Enveloped.occurrences (enveloped : Enveloped raw whole)
    (starts : StartsField raw) (found : headerOccurrences raw name ≠ []) :
    headerOccurrences whole name ≠ [] := by
  induction enveloped with
  | message => exact found
  | field fieldName value visible plain inside ih =>
    have nonempty : fieldName ++ value ≠ [] := by
      obtain ⟨byte, rest, rfl, _⟩ := visible
      exact cons_ne_nil _ _
    rw [withField, headerOccurrences_front plain nonempty (inside.starts starts)]
    exact append_ne_nil_of_right_ne_nil _ ih
  | ended inside ih => rwa [headerOccurrences, headerLines_append_crlf]

/-- The value of the signature field. -/
def signatureValue (crypto : Crypto) (moment : Moment) (record : DkimRecord)
    (raw signature : Bytes) : Bytes :=
  signingHeader crypto moment record raw ++ base64Encode signature

theorem isTagText_bodyHash (crypto : Crypto) (raw : Bytes) :
    IsTagText (computeBodyHashRelaxed crypto raw) := isTagText_base64 _

theorem signedName_headerNames {headers : SortedMap Bytes Bytes} :
    ∀ name ∈ headerNames headers, SignedName name :=
  fun _ member => signedName (mem_headerNames member).1

/-- A text on one line, without NULs. -/
def IsLineText (text : Bytes) : Prop := ∀ byte ∈ text, byte ≠ 0x0d ∧ byte ≠ 0

variable {text : Bytes}

theorem isLineText_of_all
    (plain : text.all (fun byte => byte != 0x0d && byte != 0) = true) : IsLineText text := by
  intro byte member
  simpa using all_eq_true.mp plain byte member

theorem IsLineText.append {left right : Bytes} (leftText : IsLineText left)
    (rightText : IsLineText right) : IsLineText (left ++ right) :=
  forall_mem_append.mpr ⟨leftText, rightText⟩

theorem IsLineText.noReturn (line : IsLineText text) : 0x0d ∉ text :=
  fun member => (line _ member).1 rfl

theorem IsLineText.cString (line : IsLineText text) : cString text = text :=
  cString_eq_self fun member => (line _ member).2 rfl

theorem IsTagText.line (tag : IsTagText text) : IsLineText text := by
  intro byte member
  refine ⟨?_, (tag byte member).2.2⟩
  rintro rfl
  exact tag.noReturn member

theorem isLineText_header {record : DkimRecord} (named : record.Named) (epochMs : Int64)
    {names : List Bytes} (signed : ∀ name ∈ names, SignedName name) {bodyHash : Bytes}
    (hashText : IsTagText bodyHash) :
    IsLineText (buildSigningHeader record.domain record.selector epochMs names bodyHash) := by
  have fixed : IsLineText (ascii "v=1; a=rsa-sha256; c=relaxed/relaxed; d=") :=
    isLineText_of_all (by decide +kernel)
  have separators : IsLineText (ascii "; s=") ∧ IsLineText (ascii "; t=") ∧
      IsLineText (ascii "; h=") ∧ IsLineText (ascii "; bh=") ∧ IsLineText (ascii "; b=") :=
    ⟨isLineText_of_all (by decide +kernel), isLineText_of_all (by decide +kernel),
      isLineText_of_all (by decide +kernel), isLineText_of_all (by decide +kernel),
      isLineText_of_all (by decide +kernel)⟩
  obtain ⟨selector, time, listed, body, signature⟩ := separators
  rw [buildSigningHeader]
  have domain := fixed.append (isTagText_toLower named.domain).line
  have selected := (domain.append selector).append (isTagText_toLower named.selector).line
  have timed := (selected.append time).append (isTagText_number (epochMs / 1000)).line
  have listing := (timed.append listed).append (headerList_eq signed).2.2.line
  exact ((listing.append body).append hashText.line).append signature

/-- A tag whose value goes when it is b. -/
def Tag.emptied (tag : Tag) : Tag :=
  if tag.name = ascii "b" then { tag with value := [] } else tag

theorem emptyBSegment_segment {tag : Tag} (reads : tag.Reads) :
    emptyBSegment tag.segment = tag.emptied.segment := by
  have here : 0x3d ∈ tag.segment := mem_append_right _ (mem_cons_self ..)
  have shown : tagName tag.segment = tag.name := by
    rw [tagName, Tag.segment, (cut_mark reads.lead.1).1, reads.name]
  rw [emptyBSegment, shown, Tag.emptied]
  by_cases isB : tag.name = ascii "b"
  · rw [if_pos ⟨here, isB⟩, if_pos isB, Tag.segment, (cut_mark reads.lead.1).1]
    rfl
  · rw [if_neg fun both => isB both.2, if_neg isB]

theorem emptyBTag_tagList {tags : List Tag} (reads : ∀ tag ∈ tags, tag.Reads)
    (nonempty : tags ≠ []) : emptyBTag (tagList tags) = tagList (tags.map Tag.emptied) := by
  rw [emptyBTag, splitOn_tagList reads nonempty, tagList, map_map, map_map]
  congr 1
  exact map_congr_left fun tag member => emptyBSegment_segment (reads tag member)

theorem signatureTags_emptied (record : DkimRecord) (epochMs : Int64) (names : List Bytes)
    (bodyHash b : Bytes) :
    (signatureTags record epochMs names bodyHash b).map Tag.emptied =
      signatureTags record epochMs names bodyHash [] := by
  have others {lead name value : Bytes} (other : name ≠ ascii "b") :
      Tag.emptied { lead, name, value } = { lead, name, value } := if_neg other
  have own {lead value : Bytes} : Tag.emptied { lead, name := ascii "b", value } =
      { lead, name := ascii "b", value := [] } := if_pos rfl
  simp only [signatureTags, map_cons, map_nil]
  rw [others (by decide), others (by decide), others (by decide), others (by decide),
    others (by decide), others (by decide), others (by decide), others (by decide), own]

section

variable {crypto : Crypto} {moment : Moment} {record : DkimRecord} {raw signature : Bytes}

theorem signatureValue_tags : signatureValue crypto moment record raw signature =
    tagList (signatureTags record moment.epochMs (headerNames (parseHeaders raw))
      (computeBodyHashRelaxed crypto raw) (base64Encode signature)) :=
  signatureTags_text _ _ _ _ _

theorem emptyBTag_signatureValue (named : record.Named) :
    cString (emptyBTag (signatureValue crypto moment record raw signature)) =
      signingHeader crypto moment record raw := by
  have emptied : emptyBTag (signatureValue crypto moment record raw signature) =
      signingHeader crypto moment record raw := by
    rw [signatureValue_tags, emptyBTag_tagList
      (signatureTags_reads named _ signedName_headerNames (isTagText_bodyHash crypto raw)
        (isTagText_base64 signature)) (cons_ne_nil _ _), signatureTags_emptied,
      ← signatureTags_text, append_nil]
    rfl
  rw [emptied]
  exact (isLineText_header named _ signedName_headerNames (isTagText_bodyHash crypto raw)).cString

theorem isLineText_signatureValue (named : record.Named) :
    IsLineText (signatureValue crypto moment record raw signature) :=
  (isLineText_header named _ signedName_headerNames (isTagText_bodyHash crypto raw)).append
    (isTagText_base64 signature).line

theorem base64Encode_ne_nil (nonempty : data ≠ []) : base64Encode data ≠ [] := by
  intro nothing
  have decoded := base64Decode_encode data
  rw [nothing] at decoded
  exact nonempty decoded.symm

theorem trimmed_signatureValue (nonempty : signature ≠ []) :
    SwString.trimmed (0x20 :: signatureValue crypto moment record raw signature) =
      signatureValue crypto moment record raw signature := by
  obtain ⟨header, first⟩ : ∃ rest, signingHeader crypto moment record raw = 0x76 :: rest :=
    ⟨_, rfl⟩
  have opened : (0x20 :: signatureValue crypto moment record raw signature).dropWhile
      SwString.isBlank = signatureValue crypto moment record raw signature := by
    rw [signatureValue, first, cons_append, dropWhile_cons_of_pos (by decide),
      dropWhile_cons_of_neg (by decide)]
  obtain ⟨front, last, split⟩ : ∃ front last, base64Encode signature = front ++ [last] := by
    have written := base64Encode_ne_nil nonempty
    exact ⟨_, _, (dropLast_append_getLast written).symm⟩
  have visible : SwString.isBlank last = false := by
    have blanks : ∀ code < 256, isSpace (UInt8.ofNat code) = false →
        SwString.isBlank (UInt8.ofNat code) = false := by decide +kernel
    have shown := blanks last.toNat last.toNat_lt
    rw [UInt8.ofNat_toNat] at shown
    refine shown (isTagText_base64 signature last ?_).1
    rw [split]
    exact mem_append_right _ (mem_singleton_self last)
  rw [SwString.trimmed, opened, signatureValue, split, ← append_assoc, reverse_concat,
    dropWhile_cons_of_neg (Bool.eq_false_iff.mp visible), reverse_cons,
    reverse_reverse]

/-- The signed message. -/
def signedMessage (crypto : Crypto) (moment : Moment) (record : DkimRecord)
    (raw signature : Bytes) : Bytes :=
  ascii "DKIM-Signature: " ++ signatureValue crypto moment record raw signature ++ crlf ++ raw

theorem signatureField_plain (named : record.Named) :
    0x0d ∉ ascii "DKIM-Signature: " ++ signatureValue crypto moment record raw signature := by
  rw [mem_append, not_or]
  exact ⟨by decide, (isLineText_signatureValue named).noReturn⟩

theorem fieldName_dkimSignature : FieldName (ascii "dkim-signature") :=
  ⟨by decide, by decide, by decide, by decide⟩

theorem signatureField_cut :
    (ascii "DKIM-Signature: " ++
        signatureValue crypto moment record raw signature).takeWhile (· ≠ 0x3a) =
      ascii "DKIM-Signature" ∧
    ((ascii "DKIM-Signature: " ++
        signatureValue crypto moment record raw signature).dropWhile (· ≠ 0x3a)).drop 1 =
      0x20 :: signatureValue crypto moment record raw signature := by
  have split : ascii "DKIM-Signature: " = ascii "DKIM-Signature" ++ [0x3a, 0x20] := by decide
  rw [split, append_assoc]
  exact cut_mark (by decide)

theorem signature_occurrences (named : record.Named) (nonempty : signature ≠ [])
    (starts : StartsField raw) :
    headerOccurrences (signedMessage crypto moment record raw signature)
        (ascii "dkim-signature") =
      signatureValue crypto moment record raw signature ::
        headerOccurrences raw (ascii "dkim-signature") := by
  have colon : 0x3a ∈ ascii "DKIM-Signature: " ++
      signatureValue crypto moment record raw signature :=
    mem_append_left _ (by decide)
  have lower : SwString.toLower ((ascii "DKIM-Signature: " ++
      signatureValue crypto moment record raw signature).takeWhile (· ≠ 0x3a)) =
        ascii "dkim-signature" := by
    rw [signatureField_cut.1]
    decide
  rw [signedMessage, headerOccurrences_front (signatureField_plain named)
    (append_ne_nil_of_left_ne_nil (by decide) _) starts, Occurrences.openLine,
    if_pos ((starts_iff fieldName_dkimSignature _).mpr ⟨colon, lower⟩),
    drop_front fieldName_dkimSignature colon lower, signatureField_cut.2, Occurrences.stored]
  dsimp only
  rw [trimmed_signatureValue nonempty]
  rfl

theorem field_occurrences (named : record.Named) (starts : StartsField raw)
    (signed : SignedName name) :
    headerOccurrences (signedMessage crypto moment record raw signature) name =
      headerOccurrences raw name := by
  have other : ¬((fieldFront name).length ≤ (ascii "DKIM-Signature: " ++
      signatureValue crypto moment record raw signature).length ∧
        SwString.toLower ((ascii "DKIM-Signature: " ++
          signatureValue crypto moment record raw signature).take (fieldFront name).length) =
            fieldFront name) := by
    rw [starts_iff signed.field, signatureField_cut.1]
    rintro ⟨_, same⟩
    exact signed.other (same.symm.trans (by decide))
  rw [signedMessage, headerOccurrences_front (signatureField_plain named)
    (append_ne_nil_of_left_ne_nil (by decide) _) starts, Occurrences.openLine, if_neg other]
  rfl

theorem messageBody_signedMessage (named : record.Named) (starts : StartsField raw) :
    messageBody (signedMessage crypto moment record raw signature) = messageBody raw := by
  rw [messageBody, messageBody, signedMessage, cutAt_front (signatureField_plain named) starts]
  cases cutAt crlfcrlf raw with
  | none => rfl
  | some cut => rfl

theorem bodyHash_signedMessage (named : record.Named) (starts : StartsField raw) :
    computeBodyHashRelaxed crypto (signedMessage crypto moment record raw signature) =
      computeBodyHashRelaxed crypto raw := by
  rw [computeBodyHashRelaxed, computeBodyHashRelaxed, canonicalizeBodyRelaxed,
    canonicalizeBodyRelaxed, messageBody_signedMessage named starts]

end

end SwStack.Mail
