import SwStack.Mail.Dkim
import SwStack.Types.Base64RoundTrip

/-! Tag lists. The signature field that the signer writes is a list of nine tags, and the verifier
finds each of them in it. -/
namespace SwStack.Mail

open SwStack.Lib SwStack.Types List

/-- A text without blanks, semicolons and NULs. -/
def IsTagText (text : Bytes) : Prop :=
  ∀ byte ∈ text, isSpace byte = false ∧ byte ≠ 0x3b ∧ byte ≠ 0

theorem IsTagText.append {left right : Bytes} (leftText : IsTagText left)
    (rightText : IsTagText right) : IsTagText (left ++ right) :=
  List.forall_mem_append.mpr ⟨leftText, rightText⟩

variable {text : Bytes}

theorem IsTagText.plain (tag : IsTagText text) : 0x3b ∉ text :=
  fun member => (tag _ member).2.1 rfl

theorem IsTagText.noReturn (tag : IsTagText text) : 0x0d ∉ text := by
  intro member
  cases (tag _ member).1

theorem dropWhile_eq_self
    (visible : ∀ byte ∈ text, blank byte = false) : text.dropWhile blank = text := by
  cases text with
  | nil => rfl
  | cons byte text =>
    rw [dropWhile_cons_of_neg]
    rw [visible byte (mem_cons_self ..)]
    exact Bool.false_ne_true

theorem stripTrailing_eq_self
    (visible : ∀ byte ∈ text, blank byte = false) : stripTrailing blank text = text := by
  rw [stripTrailing, dropWhile_eq_self fun byte member => visible byte (mem_reverse.mp member),
    reverse_reverse]

theorem IsTagText.trim (tag : IsTagText text) : trim text = text := by
  rw [Mail.trim, dropWhile_eq_self fun byte member => (tag byte member).1,
    stripTrailing_eq_self fun byte member => (tag byte member).1]

theorem IsTagText.stripWs (tag : IsTagText text) : stripWs text = text := by
  rw [Mail.stripWs, List.filter_eq_self]
  intro byte member
  rw [(tag byte member).1]
  rfl

theorem cString_eq_self (plain : 0 ∉ text) : cString text = text := by
  rw [cString, takeWhile_eq_self_iff]
  intro byte member
  rw [decide_eq_true_iff]
  rintro rfl
  exact plain member

theorem IsTagText.cString (tag : IsTagText text) : cString text = text :=
  cString_eq_self fun member => (tag _ member).2.2 rfl

theorem isTagText_base64 (data : Bytes) : IsTagText (base64Encode data) := by
  have alphabet : base64Chars.all (fun byte => !isSpace byte && byte != 0x3b && byte != 0) =
      true := by
    decide +kernel
  intro byte member
  rcases mem_base64Encode member with character | rfl
  · simpa [and_assoc] using List.all_eq_true.mp alphabet byte character
  · decide

theorem isTagText_toLower (tag : IsTagText text) : IsTagText (SwString.toLower text) := by
  have letters : ∀ code < 256, isSpace (UInt8.ofNat code) = false ∧ UInt8.ofNat code ≠ 0x3b ∧
      UInt8.ofNat code ≠ 0 → isSpace (SwString.lowerByte (UInt8.ofNat code)) = false ∧
        SwString.lowerByte (UInt8.ofNat code) ≠ 0x3b ∧
        SwString.lowerByte (UInt8.ofNat code) ≠ 0 := by
    decide +kernel
  intro byte member
  obtain ⟨original, held, rfl⟩ := mem_map.mp member
  have lowered := letters original.toNat original.toNat_lt
  rw [UInt8.ofNat_toNat] at lowered
  exact lowered (tag original held)

/-- A tag as the signer writes it. -/
structure Tag where
  lead : Bytes
  name : Bytes
  value : Bytes

namespace Tag

def segment (tag : Tag) : Bytes := tag.lead ++ 0x3d :: tag.value

/-- The verifier reads the tag as it stands. -/
structure Reads (tag : Tag) : Prop where
  lead : 0x3d ∉ tag.lead ∧ 0x3b ∉ tag.lead
  name : SwString.toLower (trim tag.lead) = tag.name
  named : tag.name ≠ []
  value : IsTagText tag.value

theorem Reads.addTag {tag : Tag} (reads : tag.Reads) (tags : SortedMap Bytes Bytes) :
    addTag tags tag.segment = tags.insert tag.name tag.value := by
  have here : 0x3d ∈ tag.segment := mem_append_right _ (mem_cons_self ..)
  have shown : tagName tag.segment = tag.name := by
    rw [tagName, segment, (cut_mark reads.lead.1).1, reads.name]
  rw [Mail.addTag, if_pos ⟨here, shown ▸ reads.named⟩, shown, segment,
    (cut_mark reads.lead.1).2, reads.value.trim]

theorem Reads.plain {tag : Tag} (reads : tag.Reads) : 0x3b ∉ tag.segment := by
  rw [segment, mem_append, mem_cons, not_or, not_or]
  exact ⟨reads.lead.2, by decide, reads.value.plain⟩

end Tag

def tagList (tags : List Tag) : Bytes := List.intercalate [0x3b] (tags.map Tag.segment)

theorem splitOn_tagList {tags : List Tag} (reads : ∀ tag ∈ tags, tag.Reads) (nonempty : tags ≠ []) :
    (tagList tags).splitOn 0x3b = tags.map Tag.segment := by
  refine List.splitOn_intercalate _ ?_ (mt map_eq_nil_iff.mp nonempty)
  intro segment member
  obtain ⟨tag, listed, rfl⟩ := mem_map.mp member
  exact (reads tag listed).plain

theorem find?_parseTags {tags : List Tag} (reads : ∀ tag ∈ tags, tag.Reads) (nonempty : tags ≠ [])
    (key : Bytes) :
    (parseTags (tagList tags)).find? key =
      (tags.reverse.find? (·.name = key)).map Tag.value := by
  rw [parseTags, splitOn_tagList reads nonempty, foldl_map]
  clear nonempty
  induction tags using List.reverseRecOn with
  | nil => rfl
  | append_singleton tags tag ih =>
    obtain ⟨before, last⟩ := List.forall_mem_append.mp reads
    have reading := last tag (List.mem_singleton_self tag)
    rw [List.foldl_concat, reading.addTag, SortedMap.find?_insert, ih before, reverse_concat,
      find?_cons]
    by_cases same : key = tag.name
    · rw [if_pos same, decide_eq_true same.symm]
      rfl
    · rw [if_neg same, decide_eq_false (Ne.symm same)]

end SwStack.Mail

/-! Signer and verifier compute the same input from a signed message, and no message with another
canonical form gives that input. -/
namespace SwStack.Mail

open SwStack.Lib SwStack.Types

/-- What holds of every name the signer knows. -/
structure SignedName (name : Bytes) : Prop where
  field : FieldName name
  text : IsTagText name
  other : name ≠ ascii "dkim-signature"

variable {name : Bytes}

theorem signedName (member : name ∈ signedHeaderNames) : SignedName name := by
  have lower : ∀ name ∈ signedHeaderNames, SwString.toLower name = name := by decide
  have plain : ∀ name ∈ signedHeaderNames, 0x3a ∉ name ∧ name ≠ [] ∧
      isContinuation name = false ∧ name ≠ ascii "dkim-signature" := by decide
  have text : signedHeaderNames.all (fun name => name.all fun byte =>
      !isSpace byte && byte != 0x3b && byte != 0) = true := by
    decide +kernel
  obtain ⟨colon, filled, visible, other⟩ := plain name member
  refine ⟨⟨lower name member, colon, filled, visible⟩, fun byte here => ?_, other⟩
  simpa [and_assoc] using List.all_eq_true.mp (List.all_eq_true.mp text name member) byte here

theorem mem_headerNames (member : name ∈ headerNames headers) :
    name ∈ signedHeaderNames ∧ headers.contains name = true := by
  obtain ⟨listed, contained⟩ := List.mem_filter.mp member
  rw [(signedName listed).field.lower] at contained
  exact ⟨listed, contained⟩

theorem headerNames_nodup (headers : SortedMap Bytes Bytes) : (headerNames headers).Nodup :=
  List.Nodup.filter _ (by decide)

theorem intercalate_concat (sep : Bytes) (names : List Bytes) (last : Bytes) :
    List.intercalate sep (names ++ [last]) =
      (if names = [] then [] else List.intercalate sep names ++ sep) ++ last := by
  induction names with
  | nil => exact List.intercalate_singleton
  | cons name names ih =>
    rw [List.cons_append, List.intercalate_cons_of_ne_nil (by simp), ih,
      if_neg (List.cons_ne_nil _ _)]
    by_cases only : names = []
    · rw [if_pos only, only, List.intercalate_singleton, List.nil_append]
    · rw [if_neg only, List.intercalate_cons_of_ne_nil only]
      simp only [List.append_assoc]

theorem headerList_eq (signed : ∀ name ∈ names, SignedName name) :
    headerList names = List.intercalate [0x3a] names ∧ (headerList names = [] ↔ names = []) ∧
      IsTagText (headerList names) := by
  induction names using List.reverseRecOn with
  | nil => exact ⟨rfl, iff_of_true rfl rfl, List.forall_mem_nil _⟩
  | append_singleton names last ih =>
    obtain ⟨before, here⟩ := List.forall_mem_append.mp signed
    obtain ⟨same, empty, text⟩ := ih before
    have name := here last (List.mem_singleton_self last)
    have step : headerList (names ++ [last]) =
        (if headerList names = [] then [] else headerList names ++ [0x3a]) ++ last := by
      rw [headerList, List.foldl_concat, name.field.lower]
      rfl
    rw [step, intercalate_concat, ← same]
    refine ⟨?_, ?_, ?_⟩
    · by_cases none_before : names = []
      · rw [if_pos (empty.mpr none_before), if_pos none_before]
      · rw [if_neg (mt empty.mp none_before), if_neg none_before]
    · exact iff_of_false (fun nothing => name.field.some (List.append_eq_nil_iff.mp nothing).2)
        (by simp)
    · refine IsTagText.append ?_ name.text
      split
      · exact List.forall_mem_nil _
      · exact text.append (List.forall_mem_singleton.mpr (by decide))

theorem listedNames_headerList (signed : ∀ name ∈ names, SignedName name)
    (nonempty : names ≠ []) : listedNames (headerList names) = names := by
  have split : (headerList names).splitOn 0x3a = names := by
    rw [(headerList_eq signed).1]
    exact List.splitOn_intercalate _ (fun name member => (signed name member).field.plain) nonempty
  rw [listedNames, split]
  have same : names.map (fun name => SwString.toLower (trim name)) = names := by
    refine (List.map_congr_left fun name member => ?_).trans (List.map_id names)
    rw [(signed name member).text.trim, (signed name member).field.lower]
    rfl
  rw [same, List.filter_eq_self]
  intro name member
  exact decide_eq_true (signed name member).field.some

/-- The signature field's value, with the given tag b. -/
def signatureTags (record : DkimRecord) (epochMs : Int64) (names : List Bytes)
    (bodyHash b : Bytes) : List Tag :=
  [{ lead := ascii "v", name := ascii "v", value := ascii "1" },
    { lead := ascii " a", name := ascii "a", value := ascii "rsa-sha256" },
    { lead := ascii " c", name := ascii "c", value := ascii "relaxed/relaxed" },
    { lead := ascii " d", name := ascii "d", value := SwString.toLower record.domain },
    { lead := ascii " s", name := ascii "s", value := SwString.toLower record.selector },
    { lead := ascii " t", name := ascii "t", value := SwString.number (epochMs / 1000) },
    { lead := ascii " h", name := ascii "h", value := headerList names },
    { lead := ascii " bh", name := ascii "bh", value := bodyHash },
    { lead := ascii " b", name := ascii "b", value := b }]

theorem signatureTags_text (record : DkimRecord) (epochMs : Int64) (names : List Bytes)
    (bodyHash b : Bytes) :
    buildSigningHeader record.domain record.selector epochMs names bodyHash ++ b =
      tagList (signatureTags record epochMs names bodyHash b) := by
  have fixed : ascii "v=1; a=rsa-sha256; c=relaxed/relaxed; d=" =
      ascii "v" ++ 0x3d :: ascii "1" ++ [0x3b] ++ (ascii " a" ++ 0x3d :: ascii "rsa-sha256") ++
        [0x3b] ++ (ascii " c" ++ 0x3d :: ascii "relaxed/relaxed") ++ [0x3b] ++
        (ascii " d" ++ [0x3d]) := by decide +kernel
  have selector : ascii "; s=" = [0x3b] ++ (ascii " s" ++ [0x3d]) := by decide
  have time : ascii "; t=" = [0x3b] ++ (ascii " t" ++ [0x3d]) := by decide
  have listed : ascii "; h=" = [0x3b] ++ (ascii " h" ++ [0x3d]) := by decide
  have body : ascii "; bh=" = [0x3b] ++ (ascii " bh" ++ [0x3d]) := by decide
  have signature : ascii "; b=" = [0x3b] ++ (ascii " b" ++ [0x3d]) := by decide
  rw [buildSigningHeader, fixed, selector, time, listed, body, signature, tagList, signatureTags]
  simp only [List.map_cons, List.map_nil, Tag.segment, List.intercalate_cons_cons,
    List.intercalate_singleton, List.append_assoc, List.cons_append, List.nil_append]

/-- Domain and selector can stand in a tag, and something is left of the domain without its final
dots. -/
structure DkimRecord.Named (record : DkimRecord) : Prop where
  domain : IsTagText record.domain
  selector : IsTagText record.selector
  domainSome : stripTrailing (· = 0x2e) (SwString.toLower record.domain) ≠ []
  selectorSome : record.selector ≠ []

theorem isTagText_number (value : Int64) : IsTagText (SwString.number value) := by
  have digits : ∀ code < 256, isDigit (UInt8.ofNat code) = true →
      isSpace (UInt8.ofNat code) = false ∧ UInt8.ofNat code ≠ 0x3b ∧ UInt8.ofNat code ≠ 0 := by
    decide +kernel
  have plain : IsTagText (decimal value.toInt.natAbs) := by
    intro byte member
    have digit := digits byte.toNat byte.toNat_lt
    rw [UInt8.ofNat_toNat] at digit
    exact digit (isDigit_of_mem_decimal member)
  rw [SwString.number, integerText]
  split
  · exact List.forall_mem_cons.mpr ⟨by decide, plain⟩
  · exact plain

section

variable {record : DkimRecord} {names : List Bytes} {bodyHash b : Bytes}

/-- What the signer's leads have to fulfil. -/
def leadReads (lead name : Bytes) : Bool :=
  0x3d ∉ lead && 0x3b ∉ lead && SwString.toLower (trim lead) = name && name ≠ []

theorem reads_of_lead (plain : leadReads lead name = true)
    (text : IsTagText value) : Tag.Reads { lead, name, value } := by
  simp only [leadReads, Bool.and_eq_true, decide_eq_true_eq] at plain
  exact ⟨⟨plain.1.1.1, plain.1.1.2⟩, plain.1.2, plain.2, text⟩

theorem signatureTags_reads (named : record.Named) (epochMs : Int64)
    (signed : ∀ name ∈ names, SignedName name) (hashText : IsTagText bodyHash)
    (bText : IsTagText b) :
    ∀ tag ∈ signatureTags record epochMs names bodyHash b, tag.Reads := by
  have version : IsTagText (ascii "1") := by
    unfold IsTagText
    decide +kernel
  have algorithm : IsTagText (ascii "rsa-sha256") := by
    unfold IsTagText
    decide +kernel
  have canonicalization : IsTagText (ascii "relaxed/relaxed") := by
    unfold IsTagText
    decide +kernel
  simp only [signatureTags, List.forall_mem_cons]
  refine ⟨?_, ?_, ?_, ?_, ?_, ?_, ?_, ?_, ?_, List.forall_mem_nil _⟩
  · exact reads_of_lead (by decide) version
  · exact reads_of_lead (by decide) algorithm
  · exact reads_of_lead (by decide) canonicalization
  · exact reads_of_lead (by decide) (isTagText_toLower named.domain)
  · exact reads_of_lead (by decide) (isTagText_toLower named.selector)
  · exact reads_of_lead (by decide) (isTagText_number _)
  · exact reads_of_lead (by decide) (headerList_eq signed).2.2
  · exact reads_of_lead (by decide) hashText
  · exact reads_of_lead (by decide) bText

theorem getTag_signature (named : record.Named) (epochMs : Int64)
    (signed : ∀ name ∈ names, SignedName name) (hashText : IsTagText bodyHash)
    (bText : IsTagText b) (key : String) :
    getTag (parseTags (tagList (signatureTags record epochMs names bodyHash b))) key =
      (((signatureTags record epochMs names bodyHash b).reverse.find?
        (·.name = ascii key)).map Tag.value).getD [] := by
  rw [getTag, find?_parseTags (signatureTags_reads named epochMs signed hashText bText)
    (List.cons_ne_nil _ _)]

end

end SwStack.Mail
