import SwStack.Mail.Address
import SwStack.Lib.SortedMap

/-! The header block of a message, read in two ways: as a map from names to last values, and as
the list of all values of one name. -/
open List

namespace SwStack.Mail

open SwStack.Lib SwStack.Types

def crlf : Bytes := [0x0d, 0x0a]

def crlfcrlf : Bytes := [0x0d, 0x0a, 0x0d, 0x0a]

/-- A lone carriage return or line feed becomes both. -/
def toLineEndingCrlf : Bytes → Bytes
  | [] => []
  | [byte] => if byte = 0x0d ∨ byte = 0x0a then crlf else [byte]
  | byte :: next :: rest =>
    if byte = 0x0d then
      if next = 0x0a then crlf ++ toLineEndingCrlf rest
      else crlf ++ toLineEndingCrlf (next :: rest)
    else if byte = 0x0a then crlf ++ toLineEndingCrlf (next :: rest)
    else byte :: toLineEndingCrlf (next :: rest)

/-- A field in front of the message. -/
def withField (name value raw : Bytes) : Bytes := name ++ value ++ crlf ++ raw

def hasField (lower name : Bytes) : Bool :=
  !(indexOfText lower (crlf ++ name) < 0 && !SwString.startsWith lower name)

def ensureMessageEnvelopeHeaders (messageId date : Bytes) (rawInput fromAddress : Bytes)
    (recipients : List Bytes) : Bytes :=
  let raw := toLineEndingCrlf rawInput
  let lower := SwString.toLower raw
  let raw := if hasField lower (ascii "message-id:") then raw
    else withField (ascii "Message-Id: ") messageId raw
  let raw := if hasField lower (ascii "date:") then raw else withField (ascii "Date: ") date raw
  let raw := if hasField lower (ascii "from:") ∨ fromAddress = [] then raw
    else withField (ascii "From: <") (canonicalAddress fromAddress ++ ascii ">") raw
  let raw := if hasField lower (ascii "to:") ∨ recipients = [] then raw
    else
      let joined := recipients.foldl (fun joined recipient =>
        (if joined = [] then [] else joined ++ ascii ", ") ++
          ascii "<" ++ canonicalAddress recipient ++ ascii ">") []
      withField (ascii "To: ") joined raw
  if indexOfText raw crlfcrlf < 0 then raw ++ crlf else raw

def headerText (raw : Bytes) : Bytes := upTo crlfcrlf raw

/-- The lines the loops over the header block visit: they end at an empty one. -/
def headerLines (raw : Bytes) : List Bytes :=
  (splitPair 0x0d 0x0a (headerText raw)).takeWhile (· ≠ [])

def isContinuation (line : Bytes) : Bool := line.head? = some 0x20 || line.head? = some 0x09

/-- What a continuation line adds to the value. -/
def folded (value line : Bytes) : Bytes := value ++ 0x20 :: SwString.trimmed line

structure HeaderParse where
  currentName : Bytes
  currentValue : Bytes
  headers : SortedMap Bytes Bytes

namespace HeaderParse

def start : HeaderParse := { currentName := [], currentValue := [], headers := ∅ }

/-- The headers with the current one among them. -/
def stored (parse : HeaderParse) : SortedMap Bytes Bytes :=
  if parse.currentName = [] then parse.headers
  else parse.headers.insert (SwString.toLower parse.currentName)
    (SwString.trimmed parse.currentValue)

def line (parse : HeaderParse) (line : Bytes) : HeaderParse :=
  if parse.currentName ≠ [] ∧ isContinuation line then
    { parse with currentValue := folded parse.currentValue line }
  else if 0x3a ∈ line then
    { currentName := line.takeWhile (· ≠ 0x3a)
      currentValue := (line.dropWhile (· ≠ 0x3a)).drop 1
      headers := parse.stored }
  else { currentName := [], currentValue := [], headers := parse.stored }

end HeaderParse

def parseHeaders (raw : Bytes) : SortedMap Bytes Bytes :=
  ((headerLines raw).foldl HeaderParse.line HeaderParse.start).stored

/-- `current` is the value that is being collected. -/
structure Occurrences where
  values : List Bytes
  current : Option Bytes

namespace Occurrences

def start : Occurrences := { values := [], current := none }

def stored (occurrences : Occurrences) : List Bytes :=
  match occurrences.current with
  | some value => occurrences.values ++ [SwString.trimmed value]
  | none => occurrences.values

/-- A line that continues nothing: it opens a value when it starts with the field's name. -/
def openLine (front : Bytes) (values : List Bytes) (line : Bytes) : Occurrences :=
  { values
    current :=
      if front.length ≤ line.length ∧ SwString.toLower (line.take front.length) = front then
        some (line.drop front.length)
      else none }

def line (front : Bytes) (occurrences : Occurrences) (line : Bytes) : Occurrences :=
  match occurrences.current with
  | some value =>
    if isContinuation line then { occurrences with current := some (folded value line) }
    else openLine front occurrences.stored line
  | none => openLine front occurrences.values line

end Occurrences

/-- The field's name as the lines are compared with it. -/
def fieldFront (key : Bytes) : Bytes := SwString.toLower key ++ [0x3a]

def headerOccurrences (raw key : Bytes) : List Bytes :=
  ((headerLines raw).foldl (Occurrences.line (fieldFront key)) Occurrences.start).stored

end SwStack.Mail

/-! The two readings of a header block agree: the map holds the last of the occurrences. A field
put in front of a message changes neither its other fields nor its body. -/
namespace SwStack.Mail

open SwStack.Lib SwStack.Types

theorem headerLines_eq (raw : Bytes) :
    headerLines raw = (splitPair 0x0d 0x0a raw).takeWhile (· ≠ []) :=
  takeWhile_splitPair_upTo (by decide) raw

theorem headerLines_append_crlf (raw : Bytes) : headerLines (raw ++ crlf) = headerLines raw := by
  rw [headerLines_eq, headerLines_eq, crlf, splitPair_append_pair (by decide)]
  induction splitPair 0x0d 0x0a raw with
  | nil => rfl
  | cons line lines ih =>
    rw [cons_append, takeWhile_cons, takeWhile_cons, ih]

theorem headerLines_front (plain : 0x0d ∉ front) (nonempty : front ≠ [])
    (raw : Bytes) : headerLines (front ++ crlf ++ raw) = front :: headerLines raw := by
  have split : splitPair 0x0d 0x0a (front ++ crlf ++ raw) = front :: splitPair 0x0d 0x0a raw := by
    rw [append_assoc]
    exact splitPair_append plain raw
  rw [headerLines_eq, headerLines_eq, split, takeWhile_cons, decide_eq_true nonempty, if_pos rfl]

/-- A lower-case name that no continuation line starts with. -/
structure FieldName (name : Bytes) : Prop where
  lower : SwString.toLower name = name
  plain : 0x3a ∉ name
  some : name ≠ []
  visible : isContinuation name = false

namespace FieldName

variable {name : Bytes}

theorem front_eq (field : FieldName name) : fieldFront name = name ++ [0x3a] := by
  rw [fieldFront, field.lower]

end FieldName

theorem lowerByte_colon_iff {byte : UInt8} : SwString.lowerByte byte = 0x3a ↔ byte = 0x3a := by
  rw [SwString.lowerByte]
  split
  · rename_i upper
    have low : 0x41 ≤ byte.toNat := upper.1
    have high : byte.toNat ≤ 0x5a := upper.2
    have sum : (byte + 0x20).toNat = byte.toNat + 0x20 := by
      rw [UInt8.toNat_add, show (0x20 : UInt8).toNat = 0x20 from rfl]
      exact Nat.mod_eq_of_lt (by omega)
    constructor
    · intro same
      rw [same] at sum
      have value : (0x3a : UInt8).toNat = 0x3a := rfl
      omega
    · rintro rfl
      exact absurd low (by decide)
  · exact Iff.rfl

theorem toLower_append (left right : Bytes) :
    SwString.toLower (left ++ right) = SwString.toLower left ++ SwString.toLower right :=
  map_append

theorem colon_toLower {text : Bytes} : 0x3a ∈ SwString.toLower text ↔ 0x3a ∈ text := by
  rw [SwString.toLower, mem_map]
  constructor
  · rintro ⟨byte, member, same⟩
    rwa [← lowerByte_colon_iff.mp same]
  · intro member
    exact ⟨0x3a, member, rfl⟩

theorem exists_colon {line : Bytes} (member : 0x3a ∈ line) :
    ∃ name rest, line = name ++ 0x3a :: rest ∧ 0x3a ∉ name :=
  eq_append_cons_of_mem member

/-- A line starts with the name and a colon when this is what stands before its first colon. -/
theorem starts_iff {name : Bytes} (field : FieldName name) (line : Bytes) :
    ((fieldFront name).length ≤ line.length ∧
        SwString.toLower (line.take (fieldFront name).length) = fieldFront name) ↔
      0x3a ∈ line ∧ SwString.toLower (line.takeWhile (· ≠ 0x3a)) = name := by
  rw [field.front_eq, length_append, length_singleton]
  constructor
  · rintro ⟨enough, same⟩
    obtain ⟨shown, last, split, lowerName, lowerLast⟩ := map_eq_append_iff.mp same
    obtain ⟨byte, rfl, colon⟩ := map_eq_singleton_iff.mp lowerLast
    obtain rfl := lowerByte_colon_iff.mp colon
    have plain : 0x3a ∉ shown := fun member =>
      field.plain (lowerName ▸ colon_toLower.mpr member)
    have whole : line = shown ++ 0x3a :: line.drop (name.length + 1) := by
      rw [← singleton_append, ← append_assoc, ← split, take_append_drop]
    rw [whole, (cut_mark plain).1]
    exact ⟨mem_append_right _ (mem_cons_self ..), lowerName⟩
  · rintro ⟨member, same⟩
    obtain ⟨shown, rest, rfl, plain⟩ := exists_colon member
    rw [(cut_mark plain).1] at same
    have length : shown.length = name.length := by rw [← same, SwString.toLower, length_map]
    refine ⟨by
      rw [length_append, length_cons]
      omega, ?_⟩
    rw [← length, take_length_add_append, toLower_append, same]
    rfl

theorem drop_front {name line : Bytes} (field : FieldName name) (member : 0x3a ∈ line)
    (same : SwString.toLower (line.takeWhile (· ≠ 0x3a)) = name) :
    line.drop (fieldFront name).length = (line.dropWhile (· ≠ 0x3a)).drop 1 := by
  obtain ⟨shown, rest, rfl, plain⟩ := exists_colon member
  rw [(cut_mark plain).1] at same
  have length : (fieldFront name).length = shown.length + 1 := by
    rw [field.front_eq, length_append, length_singleton, ← same, SwString.toLower,
      length_map]
  rw [(cut_mark plain).2, length, drop_length_add_append]
  rfl

/-- The occurrences of one name among what has been parsed. -/
structure Reads (name : Bytes) (parse : HeaderParse) (occurrences : Occurrences) : Prop where
  found : parse.headers.find? name = occurrences.values.getLast?
  current : match occurrences.current with
    | some value => parse.currentName ≠ [] ∧ SwString.toLower parse.currentName = name ∧
        parse.currentValue = value
    | none => parse.currentName = [] ∨ SwString.toLower parse.currentName ≠ name

theorem Reads.stored {name : Bytes} {parse : HeaderParse} {occurrences : Occurrences}
    (reads : Reads name parse occurrences) :
    parse.stored.find? name = occurrences.stored.getLast? := by
  obtain ⟨found, current⟩ := reads
  rw [HeaderParse.stored, Occurrences.stored]
  cases collecting : occurrences.current with
  | some value =>
    rw [collecting] at current
    obtain ⟨named, same, held⟩ := current
    rw [if_neg named, same, held, SortedMap.find?_insert_self, getLast?_concat]
  | none =>
    rw [collecting] at current
    split
    · exact found
    · rename_i named
      have other : name ≠ SwString.toLower parse.currentName :=
        (current.resolve_left named).symm
      rw [SortedMap.find?_insert, if_neg other]
      exact found

/-- A line that continues nothing, in both readings. -/
theorem Reads.opened {name line : Bytes} (field : FieldName name) {parse : HeaderParse}
    {values : List Bytes} (found : parse.stored.find? name = values.getLast?)
    (apart : parse.currentName = [] ∨ isContinuation line = false) :
    Reads name (parse.line line) (Occurrences.openLine (fieldFront name) values line) := by
  have opens : ¬(parse.currentName ≠ [] ∧ isContinuation line = true) := by
    rintro ⟨named, continues⟩
    rcases apart with unnamed | starts
    · exact named unnamed
    · rw [starts] at continues
      cases continues
  rw [HeaderParse.line, if_neg opens, Occurrences.openLine]
  by_cases starts : 0x3a ∈ line ∧ SwString.toLower (line.takeWhile (· ≠ 0x3a)) = name
  · rw [if_pos starts.1, if_pos ((starts_iff field line).mpr starts)]
    refine ⟨found, ?_, starts.2, (drop_front field starts.1 starts.2).symm⟩
    intro unnamed
    dsimp only at unnamed
    rw [unnamed] at starts
    exact field.some starts.2.symm
  · rw [if_neg (mt (starts_iff field line).mp starts)]
    by_cases colon : 0x3a ∈ line
    · rw [if_pos colon]
      exact ⟨found, .inr fun same => starts ⟨colon, same⟩⟩
    · rw [if_neg colon]
      exact ⟨found, .inl rfl⟩

theorem openLine_continuation {name line : Bytes} (field : FieldName name)
    (continues : isContinuation line = true) (values : List Bytes) :
    Occurrences.openLine (fieldFront name) values line = { values, current := none } := by
  rw [Occurrences.openLine, if_neg]
  rw [starts_iff field]
  rintro ⟨colon, same⟩
  obtain ⟨shown, rest, rfl, plain⟩ := exists_colon colon
  rw [(cut_mark plain).1] at same
  have hidden := field.visible
  rw [← same] at hidden
  cases shown with
  | nil => cases continues
  | cons byte shown =>
    rw [isContinuation, SwString.toLower, map_cons, head?_cons] at hidden
    rw [isContinuation, cons_append, head?_cons, Bool.or_eq_true, decide_eq_true_iff,
      decide_eq_true_iff] at continues
    rcases continues with blank | blank
    · cases blank
      cases hidden
    · cases blank
      cases hidden

theorem Reads.line {name : Bytes} (field : FieldName name) {parse : HeaderParse}
    {occurrences : Occurrences} (reads : Reads name parse occurrences) (line : Bytes) :
    Reads name (parse.line line) (occurrences.line (fieldFront name) line) := by
  have stored := reads.stored
  obtain ⟨values, current⟩ := occurrences
  obtain ⟨found, here⟩ := reads
  rw [Occurrences.line]
  cases current with
  | some value =>
    obtain ⟨named, same, rfl⟩ := here
    by_cases continues : isContinuation line = true
    · dsimp only
      rw [if_pos continues, HeaderParse.line, if_pos ⟨named, continues⟩]
      exact ⟨found, named, same, rfl⟩
    · dsimp only
      rw [if_neg continues]
      exact Reads.opened field stored (.inr (Bool.not_eq_true _ ▸ continues))
  | none =>
    dsimp only
    by_cases continues : parse.currentName ≠ [] ∧ isContinuation line = true
    · rw [openLine_continuation field continues.2, HeaderParse.line, if_pos continues]
      exact ⟨found, .inr (here.resolve_left continues.1)⟩
    · refine Reads.opened field stored ?_
      rw [not_and_or, not_not, Bool.not_eq_true] at continues
      exact continues

theorem parseHeaders_find? (field : FieldName name) (raw : Bytes) :
    (parseHeaders raw).find? name = (headerOccurrences raw name).getLast? := by
  have start : Reads name HeaderParse.start Occurrences.start := ⟨rfl, .inl rfl⟩
  rw [parseHeaders, headerOccurrences]
  generalize headerLines raw = lines
  exact (foldl_rel start fun line _ _ _ reads => reads.line field line).stored

/-- The message starts with a line that neither continues another nor is empty. -/
def StartsField (raw : Bytes) : Prop :=
  ∃ byte rest, raw = byte :: rest ∧ SwString.isBlank byte = false

theorem StartsField.headerLines (starts : StartsField raw) :
    ∃ line lines, headerLines raw = line :: lines ∧ isContinuation line = false := by
  obtain ⟨byte, rest, rfl, visible⟩ := starts
  have noReturn : byte ≠ 0x0d := by
    rintro rfl
    cases visible
  have shown : isContinuation [byte] = false := by
    rw [isContinuation, head?_cons, Bool.or_eq_false_iff, decide_eq_false_iff_not,
      decide_eq_false_iff_not]
    constructor
    · rintro same
      cases same
      cases visible
    · rintro same
      cases same
      cases visible
  rw [headerLines_eq, splitPair_cons_of_ne noReturn]
  cases pieces : splitPair 0x0d 0x0a rest with
  | nil => exact absurd pieces (splitPair_ne_nil rest)
  | cons piece others => exact ⟨byte :: piece, others.takeWhile (· ≠ []), rfl, shown⟩

theorem foldl_line_append (front : Bytes) (before : List Bytes) (lines : List Bytes)
    (occurrences : Occurrences) :
    (lines.foldl (Occurrences.line front)
        { occurrences with values := before ++ occurrences.values }).stored =
      before ++ (lines.foldl (Occurrences.line front) occurrences).stored := by
  induction lines generalizing occurrences with
  | nil =>
    rw [foldl_nil, foldl_nil, Occurrences.stored, Occurrences.stored]
    cases occurrences.current with
    | some value => exact append_assoc ..
    | none => rfl
  | cons line lines ih =>
    have step : Occurrences.line front
        { occurrences with values := before ++ occurrences.values } line =
          { occurrences.line front line with
            values := before ++ (occurrences.line front line).values } := by
      obtain ⟨values, current⟩ := occurrences
      cases current with
      | some value =>
        rw [Occurrences.line, Occurrences.line]
        dsimp only
        split
        · rfl
        · rw [Occurrences.stored, Occurrences.openLine, Occurrences.openLine]
          dsimp only
          rw [append_assoc]
          rfl
      | none => rfl
    rw [foldl_cons, foldl_cons, step, ih]

theorem foldl_line_opened (opens : isContinuation line = false) (front : Bytes)
    (lines : List Bytes) (occurrences : Occurrences) :
    ((line :: lines).foldl (Occurrences.line front) occurrences).stored =
      occurrences.stored ++
        ((line :: lines).foldl (Occurrences.line front) Occurrences.start).stored := by
  have step : occurrences.line front line =
      { Occurrences.openLine front [] line with
        values := occurrences.stored ++ (Occurrences.openLine front [] line).values } := by
    rw [Occurrences.openLine, append_nil]
    obtain ⟨values, current⟩ := occurrences
    cases current with
    | some value =>
      rw [Occurrences.line]
      dsimp only
      rw [if_neg (Bool.eq_false_iff.mp opens), Occurrences.openLine]
    | none => rfl
  rw [foldl_cons, foldl_cons, step, foldl_line_append]
  rfl

theorem headerOccurrences_front (plain : 0x0d ∉ front) (nonempty : front ≠ [])
    (starts : StartsField raw) (name : Bytes) :
    headerOccurrences (front ++ crlf ++ raw) name =
      (Occurrences.openLine (fieldFront name) [] front).stored ++ headerOccurrences raw name := by
  obtain ⟨line, lines, first, opens⟩ := starts.headerLines
  rw [headerOccurrences, headerOccurrences, headerLines_front plain nonempty, foldl_cons, first]
  exact foldl_line_opened opens _ _ _

theorem cutAt_front (plain : 0x0d ∉ front) (starts : StartsField raw) :
    cutAt crlfcrlf (front ++ crlf ++ raw) =
      (cutAt crlfcrlf raw).map fun cut => (front ++ crlf ++ cut.1, cut.2) := by
  obtain ⟨byte, rest, rfl, visible⟩ := starts
  have noReturn : byte ≠ 0x0d := by
    rintro rfl
    cases visible
  have doubled : ¬crlfcrlf.isPrefixOf (0x0d :: 0x0a :: byte :: rest) = true := by
    refine mt isPrefixOf_iff_prefix.mp ?_
    rw [crlfcrlf, cons_prefix_cons, cons_prefix_cons, cons_prefix_cons]
    exact fun same => noReturn same.2.2.1.symm
  have pair : cutAt crlfcrlf (crlf ++ byte :: rest) =
      (cutAt crlfcrlf (byte :: rest)).map fun cut => (crlf ++ cut.1, cut.2) := by
    rw [crlf, cons_append, cons_append, nil_append, cutAt, if_neg doubled,
      crlfcrlf, cutAt_cons_of_ne _ _ (by decide), Option.map_map]
    rfl
  rw [append_assoc, crlfcrlf, cutAt_append_of_not_mem _ _ plain, ← crlfcrlf, pair,
    Option.map_map]
  congr 1
  funext cut
  exact congrArg (·, cut.2) (append_assoc ..).symm

end SwStack.Mail
