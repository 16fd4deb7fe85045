import SwStack.Http.Routes
import SwStack.Lib.Delimited
import SwStack.Lib.Lines
import SwStack.Types.JsonScan

/-! A URL built for a route reads back to its parameters when the values hold nothing that the
reading of a target takes for its own: the path is joined as it is, but cut, decoded and merged
when it is read. -/
namespace SwStack.Http

open List SwStack.Lib SwStack.Types

theorem filter_split (delimiter : UInt8) (text : Bytes) :
    (split delimiter text).filter (· ≠ []) = parts delimiter text := by
  rw [split, parts]
  split
  · rename_i last
    obtain ⟨front, same⟩ := getLast?_eq_some_iff.mp last
    rw [same, dropLast_concat, filter_append]
    exact (append_nil _).symm
  · rfl

/-- What merging slashes leaves of a text. -/
structure Merged (text merged : Bytes) : Prop where
  parts : parts slash merged = parts slash text
  shrinks : merged = text ∨ merged.length < text.length
  head : merged.head? = text.head?

theorem Merged.refl (text : Bytes) : Merged text text := ⟨rfl, .inl rfl, rfl⟩

theorem Merged.trans (left : Merged first second)
    (right : Merged second third) : Merged first third where
  parts := right.parts.trans left.parts
  shrinks := by
    rcases left.shrinks with rfl | shorter
    · exact right.shrinks
    · rcases right.shrinks with rfl | further
      · exact .inr shorter
      · exact .inr (further.trans shorter)
  head := right.head.trans left.head

theorem parts_replaceDouble (front text : Bytes) (absent : slash ∉ front) :
    parts slash (front ++ replaceDouble text) = parts slash (front ++ text) := by
  induction text using twoStepInduction generalizing front with
  | nil => simp [replaceDouble]
  | singleton item => simp [replaceDouble]
  | cons_cons first second rest pairRest ih =>
    by_cases pair : first = slash ∧ second = slash
    · obtain ⟨rfl, rfl⟩ := pair
      rw [replaceDouble, if_pos ⟨rfl, rfl⟩, parts_append_cons, parts_append_cons, parts_cons]
      exact congrArg _ (pairRest [] (not_mem_nil))
    · rw [replaceDouble, if_neg pair]
      by_cases here : first = slash
      · rw [here, parts_append_cons, parts_append_cons]
        exact congrArg _ (ih second [] (not_mem_nil))
      · have inner := ih second (front ++ [first]) (by
          rw [mem_append, mem_singleton]
          exact not_or.mpr ⟨absent, Ne.symm here⟩)
        rwa [append_assoc, append_assoc] at inner

theorem merged_replaceDouble (text : Bytes) : Merged text (replaceDouble text) := by
  have shrinks : replaceDouble text = text ∨ (replaceDouble text).length < text.length := by
    induction text using twoStepInduction with
    | nil => simp [replaceDouble]
    | singleton item => simp [replaceDouble]
    | cons_cons first second rest pairRest ih =>
      by_cases pair : first = slash ∧ second = slash
      · rw [replaceDouble, if_pos pair, length_cons, length_cons, length_cons]
        rcases pairRest with same | shorter
        · rw [same]
          exact .inr (by omega)
        · exact .inr (by omega)
      · rw [replaceDouble, if_neg pair]
        rcases ih second with same | shorter
        · exact .inl (by rw [same])
        · exact .inr (Nat.succ_lt_succ shorter)
  refine ⟨parts_replaceDouble [] text not_mem_nil, shrinks, ?_⟩
  match text with
  | [] => simp [replaceDouble]
  | [item] => simp [replaceDouble]
  | first :: second :: rest =>
    by_cases pair : first = slash ∧ second = slash
    · rw [replaceDouble, if_pos pair, pair.1]; rfl
    · rw [replaceDouble, if_neg pair]; rfl

theorem merged_mergeSlashes (text : Bytes) : Merged text (mergeSlashes text) := by
  have rounds (count : Nat) : Merged text (replaceDouble^[count] text) := by
    induction count with
    | zero => exact .refl text
    | succ count ih =>
      rw [Function.iterate_succ_apply']
      exact ih.trans (merged_replaceDouble _)
  exact rounds text.length

theorem startsWith_slash (text : Bytes) :
    SwString.startsWith text [slash] = true ↔ text.head? = some slash := by
  cases text with
  | nil => decide
  | cons first rest =>
    rw [SwString.startsWith, isPrefixOf_iff_prefix, cons_prefix_cons, head?_cons]
    constructor
    · exact fun same => congrArg some same.1.symm
    · exact fun same => ⟨(Option.some.inj same).symm, nil_prefix⟩

theorem merged_normalizePath {text : Bytes} (first : text.head? = some slash) :
    Merged text (swHttpNormalizePath text) := by
  have filled : text ≠ [] := by
    rintro rfl
    cases first
  rw [swHttpNormalizePath, if_neg filled, if_pos ((startsWith_slash text).mpr first)]
  exact merged_mergeSlashes text

theorem splitPath_eq (path : Bytes) : splitPath path = parts slash path := by
  have normal : parts slash (swHttpNormalizePath path) = parts slash path := by
    rw [swHttpNormalizePath]
    split
    · rename_i empty
      rw [empty, parts_cons]
    · split
      · exact (merged_mergeSlashes _).parts
      · exact (merged_mergeSlashes _).parts.trans (parts_cons path)
  rw [splitPath]
  split
  · rename_i root
    rw [← normal, root, parts_cons, parts_nil]
  · rw [filter_split, normal]

theorem partsSize_le (first : text.head? = some slash) :
    partsSize (parts slash text) ≤ text.length := by
  obtain ⟨rest, rfl⟩ := head?_eq_some_iff.mp first
  rw [parts_cons]
  exact partsSize_parts_le rest

theorem normalizePath_of_full (first : text.head? = some slash)
    (full : text.length ≤ partsSize (parts slash text)) : swHttpNormalizePath text = text := by
  have merged := merged_normalizePath first
  rcases merged.shrinks with same | shorter
  · exact same
  · have bound := partsSize_le (merged.head.trans first)
    rw [merged.parts] at bound
    omega

theorem hexDigit_unreserved (small : value < 16) : isUnreserved (hexDigit value) = true := by
  revert value
  decide

theorem mem_percentEncode (member : c ∈ percentEncode text) :
    isUnreserved c = true ∨ c = percent := by
  obtain ⟨source, -, inside⟩ := mem_flatMap.mp member
  split at inside
  · rename_i plain
    rw [mem_singleton] at inside
    exact .inl (inside ▸ plain)
  · have small := source.toNat_lt
    rw [mem_cons, mem_cons, mem_singleton] at inside
    rcases inside with same | same | same
    · exact .inr same
    · exact .inl (same ▸ hexDigit_unreserved (by omega))
    · exact .inl (same ▸ hexDigit_unreserved (by omega))

theorem percentDecode_cons (rest : Bytes)
    (plain : ¬(plusAsSpace = true ∧ c = 0x2b)) (other : c ≠ percent) :
    swHttpPercentDecode plusAsSpace (c :: rest) =
      (swHttpPercentDecode plusAsSpace rest).map (c :: ·) := by
  rw [swHttpPercentDecode.eq_def]
  exact (if_neg plain).trans (if_neg other)

theorem percentDecode_sign (rest : Bytes)
    (high : hexValue first = some hi) (low : hexValue second = some lo) :
    swHttpPercentDecode plusAsSpace (percent :: first :: second :: rest) =
      (swHttpPercentDecode plusAsSpace rest).map (UInt8.ofNat (hi * 16 + lo) :: ·) := by
  rw [swHttpPercentDecode, if_neg fun plus => absurd plus.2 (by decide), if_pos rfl]
  simp only [high, low]

theorem percentDecode_encode (text : Bytes) :
    swHttpPercentDecode true (percentEncode text) = some text := by
  induction text with
  | nil => rfl
  | cons c text ih =>
    rw [percentEncode, flatMap_cons]
    change swHttpPercentDecode true (_ ++ percentEncode text) = _
    split
    · rename_i plain
      have space : c ≠ 0x2b := by
        rintro rfl
        cases plain
      have sign : c ≠ percent := by
        rintro rfl
        cases plain
      rw [singleton_append, percentDecode_cons _ (fun plus => space plus.2) sign, ih]
      rfl
    · have small := c.toNat_lt
      have whole : UInt8.ofNat (c.toNat / 16 * 16 + c.toNat % 16) = c := by
        rw [Nat.div_add_mod', UInt8.ofNat_toNat]
      rw [cons_append, cons_append, cons_append, nil_append,
        percentDecode_sign _ (hexValue_hexDigit (by omega)) (hexValue_hexDigit (by omega)), ih,
        whole]
      rfl

theorem percentDecode_plain (absent : percent ∉ text) :
    swHttpPercentDecode false text = some text := by
  induction text with
  | nil => rfl
  | cons c text ih =>
    obtain ⟨other, absent⟩ := not_or.mp (mt mem_cons.mpr absent)
    rw [percentDecode_cons _ (fun plus => absurd plus.1 Bool.false_ne_true) (Ne.symm other),
      ih absent]
    rfl

/-- Decoding shortens a text that holds a percent sign. -/
theorem percentDecode_shrinks (read : swHttpPercentDecode false text = some decoded) :
    decoded.length ≤ text.length ∧ (percent ∈ text → decoded.length < text.length) := by
  induction text using swHttpPercentDecode.induct false generalizing decoded with
  | case1 =>
    cases read
    exact ⟨le_rfl, fun member => absurd member not_mem_nil⟩
  | case2 c rest plus => cases plus.1
  | case3 first second rest hi lo low high plain ih =>
    rw [percentDecode_sign rest high low] at read
    obtain ⟨tail, inner, rfl⟩ := Option.map_eq_some_iff.mp read
    have shorter := (ih inner).1
    rw [length_cons, length_cons, length_cons, length_cons]
    exact ⟨by omega, fun _ => by omega⟩
  | case4 first second rest bad plain =>
    rw [swHttpPercentDecode, if_neg plain, if_pos rfl] at read
    split at read
    · rename_i hi lo high low
      exact (bad hi lo high low).elim
    · cases read
  | case5 rest short plain =>
    rw [swHttpPercentDecode, if_neg plain, if_pos rfl] at read
    · cases read
    · exact short
  | case6 c rest plain other ih =>
    rw [percentDecode_cons rest plain other] at read
    obtain ⟨tail, inner, rfl⟩ := Option.map_eq_some_iff.mp read
    obtain ⟨shorter, strict⟩ := ih inner
    rw [length_cons, length_cons, mem_cons]
    refine ⟨Nat.succ_le_succ shorter, fun member => ?_⟩
    exact Nat.succ_lt_succ (strict (member.resolve_left (Ne.symm other)))

theorem parsePair_pairText (queryParams : Params) (pair : Bytes × Bytes) :
    parsePair queryParams (pairText pair) = queryParams.insert pair.1 pair.2 := by
  have absent : (0x3d : UInt8) ∉ percentEncode pair.1 := by
    intro member
    rcases mem_percentEncode member with plain | same
    · cases plain
    · cases same
  obtain ⟨front, behind⟩ := @cut_mark _ _ _ _ (percentEncode pair.2) absent
  rw [parsePair, pairText, front, behind, percentDecode_encode, percentDecode_encode]

theorem parts_pairText (pair : Bytes × Bytes) : parts 0x26 (pairText pair) = [pairText pair] := by
  refine parts_of_absent (fun member => ?_) (append_ne_nil_of_right_ne_nil _ (cons_ne_nil _ _))
  rcases mem_append.mp member with inside | inside
  · rcases mem_percentEncode inside with plain | same
    · cases plain
    · cases same
  · rcases mem_cons.mp inside with same | inside
    · cases same
    · rcases mem_percentEncode inside with plain | same
      · cases plain
      · cases same

theorem parseQueryString_joined (queryParams : Params) :
    swHttpParseQueryString ([0x26].intercalate (queryParams.entries.map pairText)) =
      queryParams := by
  have apart : (queryParams.entries.map pairText).flatMap (parts 0x26) =
      queryParams.entries.map pairText := by
    rw [flatMap_map, ← flatMap_singleton' (queryParams.entries.map pairText), flatMap_map]
    exact flatMap_congr fun pair _ => parts_pairText pair
  rw [swHttpParseQueryString, filter_split, parts_intercalate, apart, foldl_map]
  have inserts : (fun (found : Params) pair => parsePair found (pairText pair)) =
      fun found pair => found.insert pair.1 pair.2 := by
    funext found pair
    exact parsePair_pairText found pair
  rw [inserts]
  exact SortedMap.ofList_entries queryParams

def RouteSegment.name? : RouteSegment → Option Bytes
  | .literal _ => none
  | .parameter name _ => some name
  | .wildcard name => some name

variable {segment : RouteSegment}

theorem name_cons_iff (named : segment.name? = some own)
    (segments : List RouteSegment) (name : Bytes) :
    name ∈ (segment :: segments).filterMap RouteSegment.name? ↔
      name = own ∨ name ∈ segments.filterMap RouteSegment.name? := by
  rw [filterMap_cons_some named, mem_cons]

def RouteSegment.isWildcard : RouteSegment → Bool
  | .wildcard _ => true
  | _ => false

variable {path : List Bytes}

theorem foldl_joinRest (filled : ∀ segment ∈ path, segment ≠ []) (nonempty : front ≠ []) :
    path.foldl (fun rest segment => (if rest = [] then [] else rest ++ [slash]) ++ segment) front =
      front ++ path.flatMap (slash :: ·) := by
  induction path generalizing front with
  | nil => exact (append_nil _).symm
  | cons segment path ih =>
    rw [foldl_cons, if_neg nonempty, ih (fun other later => filled other (mem_cons_of_mem _ later))
      (append_ne_nil_of_right_ne_nil _ (filled segment mem_cons_self)), flatMap_cons]
    simp

theorem joinRest_eq (filled : ∀ segment ∈ path, segment ≠ []) :
    joinRest path = [slash].intercalate path := by
  cases path with
  | nil => rfl
  | cons segment path =>
    rw [joinRest, foldl_cons, if_pos rfl, nil_append, foldl_joinRest
      (fun other later => filled other (mem_cons_of_mem _ later)) (filled segment mem_cons_self)]
    clear filled
    induction path generalizing segment with
    | nil => simp [intercalate]
    | cons next path ih =>
      rw [intercalate_cons_cons, ← ih next, flatMap_cons, append_assoc, singleton_append,
        cons_append]

def WildcardLast (segments : List RouteSegment) : Prop :=
  ∀ segment ∈ segments.dropLast, segment.isWildcard = false

theorem WildcardLast.tail {segment : RouteSegment} {segments : List RouteSegment}
    (last : WildcardLast (segment :: segments)) : WildcardLast segments := by
  intro other member
  cases segments with
  | nil => cases member
  | cons next segments => exact last other (mem_cons_of_mem _ member)

/-- What is promised for one segment of the pattern: a filled text, and one
without empty parts for a wildcard. -/
structure Fits (pathParams : Params) (segment : RouteSegment) (piece : Bytes) : Prop where
  text : segment.text pathParams = some piece
  filled : piece ≠ []
  joined : segment.isWildcard = true → [] ∉ piece.splitOn slash

/-- A text that is a segment of the path by itself. -/
def Whole (segment : RouteSegment) (piece : Bytes) : Prop :=
  segment.isWildcard = false → slash ∉ piece

theorem find?_matchSegments_of_unnamed
    (matched : matchSegments segments path params = some found)
    (unnamed : name ∉ segments.filterMap RouteSegment.name?) :
    found.find? name = params.find? name := by
  induction segments generalizing path params with
  | nil =>
    rw [matchSegments] at matched
    split at matched
    · cases matched
      rfl
    · cases matched
  | cons segment segments ih =>
    cases segment with
    | wildcard own =>
      rw [matchSegments] at matched
      cases matched
      rw [SortedMap.find?_insert, if_neg]
      rintro rfl
      exact unnamed mem_cons_self
    | literal text =>
      cases path with
      | nil => cases matched
      | cons current path =>
        rw [matchSegments] at matched
        split at matched
        · exact ih matched unnamed
        · cases matched
    | parameter own constraint =>
      obtain ⟨other, unnamed⟩ := not_or.mp (mt mem_cons.mpr unnamed)
      cases path with
      | nil => cases matched
      | cons current path =>
        rw [matchSegments] at matched
        split at matched
        · rw [ih matched unnamed, SortedMap.find?_insert, if_neg other]
        · cases matched

theorem matchSegments_of_fits
    (fits : Forall₂ (fun segment piece => Fits pathParams segment piece ∧ Whole segment piece)
      segments pieces)
    (last : WildcardLast segments) (params : Params) :
    ∃ found, matchSegments segments (pieces.flatMap (parts slash)) params = some found ∧
      ∀ name, found.find? name =
        if name ∈ segments.filterMap RouteSegment.name? then pathParams.find? name
        else params.find? name := by
  induction fits generalizing params with
  | nil => exact ⟨params, rfl, fun _ => rfl⟩
  | @cons segment piece segments pieces fit fits ih =>
    obtain ⟨⟨text, filled, joined⟩, whole⟩ := fit
    cases segment with
    | literal own =>
      cases text
      obtain ⟨found, matched, finds⟩ := ih last.tail params
      rw [flatMap_cons, parts_of_absent (whole rfl) filled]
      exact ⟨found, by rw [singleton_append, matchSegments, if_pos rfl, matched], finds⟩
    | parameter own constraint =>
      obtain ⟨given, admitted⟩ := Option.filter_eq_some_iff.mp text
      obtain ⟨found, matched, finds⟩ := ih last.tail (params.insert own piece)
      rw [flatMap_cons, parts_of_absent (whole rfl) filled]
      refine ⟨found, by rw [singleton_append, matchSegments, if_pos admitted, matched], ?_⟩
      intro name
      rw [finds, SortedMap.find?_insert]
      by_cases same : name = own
      · rw [if_pos same, if_pos ((name_cons_iff rfl segments name).mpr (.inl same)), same, given,
          ite_self]
      · rw [if_neg same]
        refine if_congr ?_ rfl rfl
        rw [name_cons_iff rfl, or_iff_right same]
    | wildcard own =>
      cases fits with
      | cons => cases last _ mem_cons_self
      | nil =>
        rw [flatMap_cons, flatMap_nil, append_nil, matchSegments, joinRest_eq
          fun part member => (mem_parts member).2, (parts_of_full (joined rfl)).1]
        refine ⟨_, rfl, fun name => ?_⟩
        rw [SortedMap.find?_insert]
        by_cases same : name = own
        · rw [if_pos same, if_pos ((name_cons_iff rfl [] name).mpr (.inl same)), same]
          exact text.symm
        · rw [if_neg same, if_neg]
          rw [name_cons_iff rfl, or_iff_right same]
          exact not_mem_nil

/-- What was matched is what stands in the pattern, if no name is used twice. -/
theorem fits_of_matchSegments (fits : Forall₂ (Fits pathParams) segments pieces)
    (last : WildcardLast segments)
    (distinct : (segments.filterMap RouteSegment.name?).Nodup)
    (matched : matchSegments segments path params = some found)
    (finds : ∀ name ∈ segments.filterMap RouteSegment.name?,
      found.find? name = pathParams.find? name)
    (sound : ∀ part ∈ path, slash ∉ part ∧ part ≠ []) :
    path = pieces.flatMap (parts slash) ∧
      Forall₂ (fun segment piece => Fits pathParams segment piece ∧ Whole segment piece)
        segments pieces := by
  induction fits generalizing path params with
  | nil =>
    rw [matchSegments] at matched
    split at matched
    · exact ⟨‹_›, .nil⟩
    · cases matched
  | @cons segment piece segments pieces fit fits ih =>
    obtain ⟨text, filled, joined⟩ := id fit
    cases segment with
    | literal own =>
      cases text
      cases path with
      | nil => cases matched
      | cons current path =>
        rw [matchSegments] at matched
        split at matched
        · rename_i same
          subst same
          obtain ⟨absent, -⟩ := sound current mem_cons_self
          obtain ⟨rest, wholes⟩ := ih last.tail distinct matched finds
            fun part member => sound part (mem_cons_of_mem _ member)
          rw [flatMap_cons, parts_of_absent absent filled, ← rest]
          exact ⟨rfl, .cons ⟨fit, fun _ => absent⟩ wholes⟩
        · cases matched
    | parameter own constraint =>
      obtain ⟨given, -⟩ := Option.filter_eq_some_iff.mp text
      obtain ⟨fresh, distinct⟩ := nodup_cons.mp distinct
      cases path with
      | nil => cases matched
      | cons current path =>
        rw [matchSegments] at matched
        split at matched
        · have shown := finds own mem_cons_self
          rw [find?_matchSegments_of_unnamed matched fresh, SortedMap.find?_insert, if_pos rfl,
            given] at shown
          cases shown
          obtain ⟨absent, -⟩ := sound _ mem_cons_self
          obtain ⟨rest, wholes⟩ := ih last.tail distinct matched
            (fun name member => finds name (mem_cons_of_mem _ member))
            fun part member => sound part (mem_cons_of_mem _ member)
          rw [flatMap_cons, parts_of_absent absent filled, ← rest]
          exact ⟨rfl, .cons ⟨fit, fun _ => absent⟩ wholes⟩
        · cases matched
    | wildcard own =>
      cases fits with
      | cons => cases last _ mem_cons_self
      | nil =>
        rw [matchSegments] at matched
        cases matched
        have shown := finds own mem_cons_self
        have given : pathParams.find? own = some piece := text
        rw [SortedMap.find?_insert, if_pos rfl, given,
          joinRest_eq fun part member => (sound part member).2] at shown
        have same := congrArg (parts slash) (Option.some.inj shown)
        have apart : path.flatMap (parts slash) = path.flatMap fun part => [part] :=
          flatMap_congr fun part member =>
            parts_of_absent (sound part member).1 (sound part member).2
        rw [parts_intercalate, apart, flatMap_singleton'] at same
        rw [flatMap_cons, flatMap_nil, append_nil]
        exact ⟨same, .cons ⟨fit, fun plain => by cases plain⟩ .nil⟩

theorem trimmed_slash (rest : Bytes) :
    SwString.trimmed (slash :: rest) <+: slash :: rest ∧
      (SwString.trimmed (slash :: rest)).head? = some slash ∧
      (SwString.trimmed (slash :: rest) = slash :: rest ↔
        ∀ c ∈ (slash :: rest).getLast?, SwString.isBlank c = false) := by
  let back := (slash :: rest).reverse
  have same : SwString.trimmed (slash :: rest) = (back.dropWhile SwString.isBlank).reverse := rfl
  have apart : slash :: rest = (back.dropWhile SwString.isBlank).reverse ++
      (back.takeWhile SwString.isBlank).reverse := by
    rw [← reverse_append, takeWhile_append_dropWhile, reverse_reverse]
  rw [same]
  refine ⟨⟨_, apart.symm⟩, ?_, fun all c last => ?_, fun last => ?_⟩
  · cases kept : (back.dropWhile SwString.isBlank).reverse with
    | nil =>
      rw [kept, nil_append] at apart
      have blank : slash ∈ (back.takeWhile SwString.isBlank).reverse := apart ▸ mem_cons_self
      exact absurd (mem_takeWhile_imp (mem_reverse.mp blank)) (by decide)
    | cons first others =>
      rw [kept, cons_append] at apart
      rw [(cons.inj apart).1, head?_cons]
  · rw [← all, getLast?_reverse] at last
    have stops := head?_dropWhile_not SwString.isBlank back
    rw [last] at stops
    exact stops
  · cases shape : back with
    | nil => exact absurd shape (reverse_ne_nil_iff.mpr (cons_ne_nil _ _))
    | cons c others =>
      have here : (slash :: rest).getLast? = some c := by
        rw [← head?_reverse]
        exact congrArg head? shape
      rw [dropWhile_cons_of_neg (by rw [last c here]; exact Bool.false_ne_true), ← shape,
        reverse_reverse]

theorem effectiveTarget_slash (rest : Bytes) :
    effectiveTarget (slash :: rest) = SwString.trimmed (slash :: rest) := by
  obtain ⟨-, first, -⟩ := trimmed_slash rest
  obtain ⟨others, same⟩ := head?_eq_some_iff.mp first
  have other {scheme : Bytes} (letter : scheme.head? = some 0x68) :
      ¬SwString.startsWith (SwString.toLower (slash :: others)) scheme = true := by
    obtain ⟨tail, rfl⟩ := head?_eq_some_iff.mp letter
    exact Bool.false_ne_true
  rw [effectiveTarget, same]
  exact (if_neg (other rfl)).trans (if_neg (other rfl))

def queryText (queryParams : Params) : Bytes :=
  [0x26].intercalate (queryParams.entries.map pairText)

theorem nonblank_of_queryText
    (member : c ∈ queryText queryParams) : SwString.isBlank c = false := by
  have encoded {text : Bytes} (member : c ∈ percentEncode text) : SwString.isBlank c = false := by
    rw [← Bool.not_eq_true]
    intro blank
    rw [SwString.isBlank] at blank
    simp only [Bool.or_eq_true, decide_eq_true_eq] at blank
    rcases mem_percentEncode member with plain | rfl
    · rcases blank with ((rfl | rfl) | rfl) | rfl
      all_goals cases plain
    · rcases blank with ((same | same) | same) | same
      all_goals cases same
  rcases mem_intercalate member with rfl | ⟨piece, inside, here⟩
  · rfl
  · obtain ⟨pair, -, rfl⟩ := mem_map.mp inside
    rcases mem_append.mp here with key | behind
    · exact encoded key
    · rcases mem_cons.mp behind with rfl | value
      · rfl
      · exact encoded value

/-- The text that is read of a URL: its path, without the blanks at the end if nothing was
appended, and the query behind its mark. -/
theorem effectiveTarget_built {path : Bytes} (first : path.head? = some slash)
    (queryParams : Params) :
    ∃ kept tail, effectiveTarget (appendQueryString path queryParams) = kept ++ tail ∧
      kept <+: path ∧ kept.head? = some slash ∧
      (kept = path ↔
        (queryParams.isEmpty = true → ∀ c ∈ path.getLast?, SwString.isBlank c = false)) ∧
      (tail = [] ∧ queryText queryParams = [] ∨ tail = question :: queryText queryParams) := by
  obtain ⟨rest, rfl⟩ := head?_eq_some_iff.mp first
  by_cases empty : queryParams.isEmpty = true
  · obtain ⟨inside, front, all⟩ := trimmed_slash rest
    have nothing : queryText queryParams = [] := by
      rw [queryText, isEmpty_iff.mp empty]
      rfl
    refine ⟨_, [], ?_, inside, front, all.trans ⟨fun last _ => last, fun last => last empty⟩,
      .inl ⟨rfl, nothing⟩⟩
    rw [appendQueryString, if_pos empty, effectiveTarget_slash, append_nil]
  · refine ⟨_, _, ?_, prefix_refl _, rfl, iff_of_true rfl fun filled => absurd filled empty, .inr rfl⟩
    have built : appendQueryString (slash :: rest) queryParams =
        slash :: (rest ++ question :: queryText queryParams) := if_neg empty
    rw [built, effectiveTarget_slash, (trimmed_slash _).2.2.mpr]
    · rfl
    · intro c last
      rw [← cons_append, getLast?_append_of_ne_nil _ (cons_ne_nil _ _)] at last
      rcases mem_cons.mp (mem_of_getLast? last) with rfl | member
      · rfl
      · exact nonblank_of_queryText member

theorem rawPath_of_built {path : Bytes} (first : path.head? = some slash) (queryParams : Params) :
    let text := effectiveTarget (appendQueryString path queryParams)
    let raw := text.takeWhile (· ≠ question)
    raw <+: path ∧ raw.head? = some slash ∧
      (raw = path ↔ question ∉ path ∧
        (queryParams.isEmpty = true → ∀ c ∈ path.getLast?, SwString.isBlank c = false)) ∧
      (raw = path → (text.dropWhile (· ≠ question)).drop 1 = queryText queryParams) := by
  obtain ⟨kept, tail, read, inside, front, all, behind⟩ := effectiveTarget_built first queryParams
  have whole {text : Bytes} : text.takeWhile (· ≠ question) = text ↔ question ∉ text := by
    rw [takeWhile_eq_self_iff]
    refine ⟨fun all member => of_decide_eq_true (all _ member) rfl, fun absent c member => ?_⟩
    exact decide_eq_true fun same => absent (same ▸ member)
  have cut : (kept ++ tail).takeWhile (· ≠ question) = kept.takeWhile (· ≠ question) := by
    have empty : tail.takeWhile (· ≠ question) = [] := by
      rcases behind with ⟨rfl, -⟩ | rfl
      · rfl
      · exact takeWhile_cons_of_neg (by decide)
    rw [takeWhile_append, empty, append_nil]
    split
    · rename_i same
      exact ((takeWhile_sublist _).eq_of_length same).symm
    · rfl
  rw [read]
  intro text raw
  have here : raw = kept.takeWhile (· ≠ question) := cut
  have within : raw <+: kept := here ▸ takeWhile_prefix _
  have full (same : raw = path) : kept = path ∧ question ∉ path := by
    have kept' : kept = path := inside.eq_of_length_le (same ▸ within.length_le)
    exact ⟨kept', whole.mp (by rw [← kept', ← here, same, kept'])⟩
  obtain ⟨others, rfl⟩ := head?_eq_some_iff.mp front
  refine ⟨within.trans inside, ?_, ⟨fun same => ?_, ?_⟩, fun same => ?_⟩
  · rw [here, takeWhile_cons_of_pos (by decide), head?_cons]
  · exact ⟨(full same).2, all.mp (full same).1⟩
  · rintro ⟨absent, ends⟩
    rw [here, all.mpr ends, whole.mpr absent]
  · obtain ⟨kept', absent⟩ := full same
    rw [← kept'] at absent
    change (((slash :: others) ++ tail).dropWhile _).drop 1 = _
    have plain : ∀ c ∈ slash :: others, decide (c ≠ question) = true :=
      fun c member => decide_eq_true fun mark => absent (mark ▸ member)
    rw [dropWhile_append_of_pos plain]
    rcases behind with ⟨rfl, empty⟩ | rfl
    · exact empty.symm
    · rw [dropWhile_cons_of_neg (by decide), drop_one, tail_cons]

theorem parseTarget_eq
    (cut : (effectiveTarget target).takeWhile (· ≠ question) = raw) (nonempty : raw ≠ []) :
    parseTarget target = (swHttpPercentDecode false raw).map fun decodedPath =>
      { path := swHttpNormalizePath decodedPath
        queryString := ((effectiveTarget target).dropWhile (· ≠ question)).drop 1
        queryParams := swHttpParseQueryString
          (((effectiveTarget target).dropWhile (· ≠ question)).drop 1) } := by
  rw [parseTarget]
  simp only [cut, if_neg nonempty]

/-- The segments of all tokens of a pattern, those behind a wildcard included. -/
def tokenSegments (pattern : Bytes) : List RouteSegment :=
  (splitPath pattern).filterMap compileToken

/-- Parameters that a URL may be built of: no value is empty, and the slashes of a wildcard's stand
between filled parts. -/
structure Assigned (pattern : Bytes) (pathParams : Params) : Prop where
  filled : ∀ name value, pathParams.find? name = some value → value ≠ []
  joined : ∀ name, .wildcard name ∈ tokenSegments pattern →
    ∀ value, pathParams.find? name = some value → [] ∉ value.splitOn slash

/-- Parameters that a URL gives back. -/
structure Readable (pattern : Bytes) (pathParams queryParams : Params) : Prop where
  last : WildcardLast (tokenSegments pattern)
  plain : ∀ segment ∈ tokenSegments pattern, ∀ text, segment.text pathParams = some text →
    percent ∉ text ∧ question ∉ text
  whole : ∀ segment ∈ tokenSegments pattern, segment.isWildcard = false →
    ∀ text, segment.text pathParams = some text → slash ∉ text
  ends : queryParams.isEmpty = true → ∀ segment ∈ (tokenSegments pattern).getLast?,
    ∀ text, segment.text pathParams = some text → ∀ c ∈ text.getLast?, SwString.isBlank c = false

/-- The URL is read as a request that matches the route and gives its parameters back. -/
def ReadsBack (entry : SwHttpRouteEntry) (pathParams queryParams : Params) (url : Bytes) : Prop :=
  ∃ request found, parseTarget url = some request ∧
    matchSegments entry.segments (splitPath request.path) .empty = some found ∧
    (∀ name, found.find? name =
      if name ∈ (tokenSegments entry.pattern).filterMap RouteSegment.name? then
        pathParams.find? name
      else none) ∧
    request.queryParams = queryParams

def routed (registrations : List (Bytes × Bytes)) : SwHttpRouter :=
  registrations.foldl (fun router route => router.addNamedRoute route.1 route.2) {}

theorem compiled_of_addNamedRoute {router : SwHttpRouter}
    (member : entry ∈ (router.addNamedRoute routeName pattern).routes) :
    entry ∈ router.routes ∨ compilePattern entry.pattern = some entry.segments := by
  unfold SwHttpRouter.addNamedRoute at member
  split at member
  · exact .inl member
  · rename_i segments compiled
    rcases mem_append.mp member with before | behind
    · exact .inl ((takeWhile_sublist _).subset before)
    · rcases mem_cons.mp behind with rfl | behind
      · exact .inr compiled
      · exact .inl ((dropWhile_suffix _).subset behind)

theorem compiled_of_routed {registrations : List (Bytes × Bytes)}
    (member : entry ∈ (routed registrations).routes) :
    compilePattern entry.pattern = some entry.segments := by
  induction registrations using reverseRecOn generalizing entry with
  | nil => cases member
  | append_singleton registrations route ih =>
    rw [routed, foldl_append] at member
    exact (compiled_of_addNamedRoute member).elim (fun old => ih old) id

theorem literal_of_token (compiled : compileToken token = some (.literal text)) : text = token := by
  rw [compileToken] at compiled
  split at compiled
  · obtain ⟨found, -, same⟩ := Option.map_eq_some_iff.mp compiled
    cases same
  · split at compiled
    · cases compiled
    · cases compiled
      rfl

theorem compiled_of_pieces {tokens : List Bytes}
    (built : tokens.mapM (pieceOf pathParams) = some pieces) :
    Forall₂ (fun segment piece => segment.text pathParams = some piece)
        (tokens.filterMap compileToken) pieces ∧
      (WildcardLast (tokens.filterMap compileToken) →
        compileTokens tokens = some (tokens.filterMap compileToken)) := by
  induction tokens generalizing pieces with
  | nil =>
    cases built
    exact ⟨.nil, fun _ => rfl⟩
  | cons token tokens ih =>
    rw [mapM_cons] at built
    obtain ⟨piece, first, built⟩ := Option.bind_eq_some_iff.mp built
    obtain ⟨rest, later, same⟩ := Option.bind_eq_some_iff.mp built
    cases same
    obtain ⟨segment, compiled, text⟩ := Option.bind_eq_some_iff.mp first
    obtain ⟨texts, compiles⟩ := ih later
    rw [filterMap_cons_some compiled]
    refine ⟨.cons text texts, fun last => ?_⟩
    rw [compileTokens, compiled]
    cases segment with
    | wildcard name =>
      cases others : tokens.filterMap compileToken with
      | nil => rfl
      | cons next others =>
        rw [others] at last
        cases last _ mem_cons_self
    | literal text =>
      change (compileTokens tokens).map _ = _
      rw [compiles last.tail]
      rfl
    | parameter name constraint =>
      change (compileTokens tokens).map _ = _
      rw [compiles last.tail]
      rfl

theorem exists_piece (related : Forall₂ relation items others) (member : item ∈ items) :
    ∃ other ∈ others, relation item other := by
  induction related with
  | nil => cases member
  | cons here _ ih =>
    rcases mem_cons.mp member with rfl | later
    · exact ⟨_, mem_cons_self, here⟩
    · obtain ⟨other, inside, holds⟩ := ih later
      exact ⟨other, mem_cons_of_mem _ inside, holds⟩

theorem mem_of_getLast?_tokens
    (member : segment ∈ tokenSegments pattern) (literal : segment = .literal text) :
    slash ∉ text ∧ text ≠ [] := by
  obtain ⟨token, inside, compiled⟩ := mem_filterMap.mp member
  rw [literal] at compiled
  rw [literal_of_token compiled]
  rw [splitPath_eq] at inside
  exact mem_parts inside

section

theorem fits_of_assigned (assigned : Assigned pattern pathParams)
    (texts : Forall₂ (fun segment piece => segment.text pathParams = some piece)
      (tokenSegments pattern) pieces) :
    Forall₂ (fun segment piece => segment ∈ tokenSegments pattern ∧ Fits pathParams segment piece)
      (tokenSegments pattern) pieces := by
  have members := (forall₂_and_left _ _).mpr ⟨fun _ member => member, texts⟩
  refine members.imp fun segment piece both => ⟨both.1, both.2, ?_, fun wild => ?_⟩
  · cases segment with
    | literal text =>
      cases both.2
      exact (mem_of_getLast?_tokens both.1 rfl).2
    | parameter name constraint =>
      exact assigned.filled name piece (Option.filter_eq_some_iff.mp both.2).1
    | wildcard name => exact assigned.filled name piece both.2
  · cases segment with
    | wildcard name => exact assigned.joined name both.1 piece both.2
    | _ => cases wild

theorem size_of_wholes
    (fits : Forall₂ (fun segment piece => Fits pathParams segment piece ∧ Whole segment piece)
      segments pieces) :
    partsSize (pieces.flatMap (parts slash)) = partsSize pieces := by
  induction fits with
  | nil => rfl
  | @cons segment piece _ _ fit _ ih =>
    have here : partsSize (parts slash piece) = piece.length + 1 := by
      cases wild : segment.isWildcard with
      | true => exact (parts_of_full (fit.1.joined wild)).2
      | false => rw [parts_of_absent (fit.2 wild) fit.1.filled]; rfl
    rw [flatMap_cons, partsSize_append, here, ih]
    rfl

theorem normalizePath_of_wholes
    (fits : Forall₂ (fun segment piece => Fits pathParams segment piece ∧ Whole segment piece)
      segments pieces) :
    swHttpNormalizePath (slash :: [slash].intercalate pieces) =
      slash :: [slash].intercalate pieces := by
  cases fits with
  | nil => decide
  | cons fit rest =>
    refine normalizePath_of_full rfl ?_
    rw [parts_cons, parts_intercalate, size_of_wholes (.cons fit rest), length_cons,
      length_intercalate_add_one (cons_ne_nil _ _)]

theorem getLast?_path (fits : Forall₂ (Fits pathParams) segments pieces)
    (last : segment ∈ segments.getLast?) :
    ∃ piece, segment.text pathParams = some piece ∧
      (slash :: [slash].intercalate pieces).getLast? = piece.getLast? := by
  induction fits with
  | nil => cases last
  | @cons first piece segments pieces fit fits ih =>
    cases fits with
    | nil =>
      cases last
      refine ⟨piece, fit.text, ?_⟩
      rw [intercalate_singleton]
      exact getLast?_append_of_ne_nil [slash] fit.filled
    | @cons next other segments pieces fit' fits =>
      obtain ⟨found, text, same⟩ := ih (by rwa [getLast?_cons_cons] at last)
      refine ⟨found, text, ?_⟩
      rw [intercalate_cons_cons, append_assoc, singleton_append, ← cons_append,
        getLast?_append_of_ne_nil _ (cons_ne_nil _ _), same]

theorem readsBack_of_readable (compiled : entry.segments = tokenSegments entry.pattern)
    (fits : Forall₂ (fun segment piece =>
      segment ∈ tokenSegments entry.pattern ∧ Fits pathParams segment piece)
        (tokenSegments entry.pattern) pieces)
    (readable : Readable entry.pattern pathParams queryParams) :
    ReadsBack entry pathParams queryParams
      (appendQueryString (swHttpNormalizePath (slash :: [slash].intercalate pieces))
        queryParams) := by
  have wholes := fits.imp fun segment piece both => And.intro both.2
    fun plain => readable.whole segment both.1 plain piece both.2.text
  have normal := normalizePath_of_wholes wholes
  have absent {c : UInt8} (other : c ≠ slash) (plain : ∀ piece ∈ pieces, c ∉ piece) :
      c ∉ slash :: [slash].intercalate pieces := by
    intro member
    rcases mem_intercalate ((mem_cons.mp member).resolve_left other) with same | inside
    · exact other same
    · obtain ⟨piece, here, member⟩ := inside
      exact plain piece here member
  have plain {piece : Bytes} (member : piece ∈ pieces) : percent ∉ piece ∧ question ∉ piece := by
    obtain ⟨segment, inside, -, fit⟩ := exists_piece fits.flip member
    exact readable.plain segment inside piece fit.text
  have ends (empty : queryParams.isEmpty = true) :
      ∀ c ∈ (slash :: [slash].intercalate pieces).getLast?, SwString.isBlank c = false := by
    intro c here
    cases last : (tokenSegments entry.pattern).getLast? with
    | none =>
      rw [getLast?_eq_none_iff.mp last] at fits
      cases fits
      cases here
      rfl
    | some segment =>
      obtain ⟨piece, text, same⟩ := getLast?_path (fits.imp fun _ _ => And.right) last
      exact readable.ends empty segment last piece text c (same ▸ here)
  rw [normal]
  obtain ⟨-, -, all, query⟩ :=
    @rawPath_of_built (slash :: [slash].intercalate pieces) rfl queryParams
  have raw := all.mpr ⟨absent (by decide) fun _ member => (plain member).2, ends⟩
  obtain ⟨found, matched, finds⟩ := matchSegments_of_fits wholes readable.last .empty
  refine ⟨⟨slash :: [slash].intercalate pieces, queryText queryParams,
    swHttpParseQueryString (queryText queryParams)⟩, found, ?_, ?_, fun name => finds name,
      parseQueryString_joined queryParams⟩
  · rw [parseTarget_eq raw (cons_ne_nil _ _), query raw,
      percentDecode_plain (absent (by decide) fun _ member => (plain member).1)]
    exact congrArg some (congrArg (SwHttpRequest.mk · _ _) normal)
  · rw [compiled, splitPath_eq, parts_cons, parts_intercalate]
    exact matched

/-- The segments of the request path are as long together as the path that was built, so nothing
was cut off, decoded or merged. -/
theorem readable_of_readsBack (compiled : entry.segments = tokenSegments entry.pattern)
    (fits : Forall₂ (Fits pathParams) (tokenSegments entry.pattern) pieces)
    (last : WildcardLast (tokenSegments entry.pattern))
    (distinct : ((tokenSegments entry.pattern).filterMap RouteSegment.name?).Nodup)
    (back : ReadsBack entry pathParams queryParams
      (appendQueryString (swHttpNormalizePath (slash :: [slash].intercalate pieces))
        queryParams)) :
    Readable entry.pattern pathParams queryParams := by
  obtain ⟨request, found, parsed, matched, finds, -⟩ := back
  have merged := @merged_normalizePath (slash :: [slash].intercalate pieces) rfl
  obtain ⟨inside, starts, all, -⟩ := rawPath_of_built merged.head queryParams
  obtain ⟨rest, raw⟩ := head?_eq_some_iff.mp starts
  rw [parseTarget_eq raw (cons_ne_nil _ _)] at parsed
  obtain ⟨decoded, read, rfl⟩ := Option.map_eq_some_iff.mp parsed
  have first : decoded.head? = some slash := by
    rw [percentDecode_cons rest (fun plus => absurd plus.1 Bool.false_ne_true) (by decide)] at read
    obtain ⟨others, -, rfl⟩ := Option.map_eq_some_iff.mp read
    rfl
  rw [compiled, splitPath_eq, (merged_normalizePath first).parts] at matched
  obtain ⟨same, wholes⟩ := fits_of_matchSegments fits last distinct matched
    (fun name member => (finds name).trans (if_pos member)) fun part member => mem_parts member
  have size : (slash :: [slash].intercalate pieces).length ≤ decoded.length := by
    have bound := partsSize_le first
    rw [same, size_of_wholes wholes] at bound
    cases pieces with
    | nil => exact length_pos_of_ne_nil fun empty => by rw [empty] at first; cases first
    | cons piece pieces =>
      rwa [length_cons, length_intercalate_add_one (cons_ne_nil _ _)]
  obtain ⟨shorter, strict⟩ := percentDecode_shrinks read
  rw [normalizePath_of_wholes wholes] at inside all raw
  rw [← raw] at shorter strict
  have full := inside.eq_of_length_le (size.trans shorter)
  obtain ⟨unmarked, ends⟩ := all.mp full
  have unsigned : percent ∉ slash :: [slash].intercalate pieces := by
    intro member
    have less := strict (by rwa [full])
    rw [full] at less
    omega
  have within {segment : RouteSegment} (member : segment ∈ tokenSegments entry.pattern)
      {text : Bytes} (shown : segment.text pathParams = some text) :
      text ∈ pieces ∧ Whole segment text := by
    obtain ⟨piece, here, fit, whole⟩ := exists_piece wholes member
    cases fit.text.symm.trans shown
    exact ⟨here, whole⟩
  refine ⟨last, fun segment member text shown => ?_, fun segment member plain text shown =>
    (within member shown).2 plain, fun empty segment member text shown c here => ?_⟩
  · have part := @subset_intercalate _ slash _ _ (within member shown).1
    exact ⟨fun sign => unsigned (mem_cons_of_mem _ (part sign)),
      fun mark => unmarked (mem_cons_of_mem _ (part mark))⟩
  · obtain ⟨piece, other, same⟩ := getLast?_path fits member
    cases other.symm.trans shown
    exact ends empty c (same ▸ here)

end

/-- One route `/f/:p` under the name `f`. -/
def fileRoutes : List (Bytes × Bytes) := [([0x66], [0x2f, 0x66, 0x2f, 0x3a, 0x70])]

def fileRoute : SwHttpRouteEntry where
  name := [0x66]
  pattern := [0x2f, 0x66, 0x2f, 0x3a, 0x70]
  segments := [.literal [0x66], .parameter [0x70] .none]

def shown (value : Bytes) : Params := .ofList [([0x70], value)]

theorem find?_shown (found : (shown value).find? name = some other) : other = value := by
  change (SortedMap.insert .empty [0x70] value).find? name = some other at found
  rw [SortedMap.find?_insert] at found
  split at found
  · exact (Option.some.inj found).symm
  · cases found

theorem assigned_shown (filled : value ≠ []) : Assigned fileRoute.pattern (shown value) where
  filled _ _ found := find?_shown found ▸ filled
  joined name wild := by
    have absent : ∀ segment ∈ tokenSegments fileRoute.pattern, segment.isWildcard = false := by
      decide
    cases absent _ wild

/-- Reverse routing agrees with matching when the values are readable, and only then for a route
whose parameters have different names and whose wildcard is last. -/
theorem buildUrl_reads_back {registrations : List (Bytes × Bytes)} {entry : SwHttpRouteEntry}
    {routeName url : Bytes} {pathParams queryParams : Params}
    (member : entry ∈ (routed registrations).routes)
    (named : (routed registrations).namedPatterns.find? routeName = some entry.pattern)
    (built : (routed registrations).buildUrl routeName pathParams queryParams = some url)
    (assigned : Assigned entry.pattern pathParams) :
    (Readable entry.pattern pathParams queryParams →
        ReadsBack entry pathParams queryParams url) ∧
      (WildcardLast (tokenSegments entry.pattern) →
        ((tokenSegments entry.pattern).filterMap RouteSegment.name?).Nodup →
        ReadsBack entry pathParams queryParams url →
        Readable entry.pattern pathParams queryParams) := by
  have compiled := compiled_of_routed member
  rw [SwHttpRouter.buildUrl, named] at built
  obtain ⟨pieces, pieced, rfl⟩ := Option.map_eq_some_iff.mp built
  obtain ⟨texts, compiles⟩ := compiled_of_pieces pieced
  have fits := fits_of_assigned assigned texts
  have segments (last : WildcardLast (tokenSegments entry.pattern)) :
      entry.segments = tokenSegments entry.pattern :=
    Option.some.inj (compiled.symm.trans (compiles last))
  constructor
  · intro readable
    exact readsBack_of_readable (segments readable.last) fits readable
  · intro last distinct back
    exact readable_of_readsBack (segments last) (fits.imp fun _ _ => And.right) last distinct back

theorem buildUrl_reads_back_file :
    ReadsBack fileRoute (shown [0x76]) .empty [0x2f, 0x66, 0x2f, 0x76] := by
  have tokens : tokenSegments fileRoute.pattern = fileRoute.segments := by decide
  have plain : ∀ segment ∈ fileRoute.segments, ∀ text,
      segment.text (shown [0x76]) = some text → text = [0x66] ∨ text = [0x76] := by
    intro segment member text same
    rcases mem_cons.mp member with rfl | later
    · exact .inl (Option.some.inj same).symm
    · cases mem_singleton.mp later
      have given : ((shown [0x76]).find? [0x70]).filter (checkConstraint .none) = some text := same
      exact .inr (find?_shown (Option.filter_eq_some_iff.mp given).1)
  refine (@buildUrl_reads_back fileRoutes fileRoute [0x66] _ (shown [0x76]) .empty (by decide)
    (by decide) (by decide) (assigned_shown (by decide))).1 ⟨?_, ?_, ?_, ?_⟩
  all_goals rw [tokens]
  · exact (by decide : ∀ segment ∈ fileRoute.segments.dropLast, segment.isWildcard = false)
  · intro segment member text same
    rcases plain segment member text same with rfl | rfl
    all_goals decide
  · intro segment member _ text same
    rcases plain segment member text same with rfl | rfl
    all_goals decide
  · intro _ segment last text same c here
    rcases plain segment (mem_of_getLast? last) text same with rfl | rfl
    all_goals
      cases here
      decide

/-- A percent sign in a value is taken for an escape when the URL is read. -/
theorem buildUrl_loses_percent :
    fileRoute ∈ (routed fileRoutes).routes ∧
      (routed fileRoutes).namedPatterns.find? fileRoute.name = some fileRoute.pattern ∧
      (routed fileRoutes).buildUrl fileRoute.name (shown [0x25]) .empty =
        some [0x2f, 0x66, 0x2f, 0x25] ∧
      Assigned fileRoute.pattern (shown [0x25]) ∧
      ¬ReadsBack fileRoute (shown [0x25]) .empty [0x2f, 0x66, 0x2f, 0x25] := by
  refine ⟨by decide, by decide, by decide, assigned_shown (by decide), ?_⟩
  rintro ⟨request, found, parsed, -⟩
  have refused : (parseTarget [0x2f, 0x66, 0x2f, 0x25]).isNone = true := by decide
  rw [parsed] at refused
  cases refused

end SwStack.Http
