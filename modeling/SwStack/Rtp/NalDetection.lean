import SwStack.Rtp.Packetizer

/-! Which form of a payload the splitter takes: units behind their lengths are read as such where
their bytes show no start code. -/
namespace SwStack.Rtp

open SwStack.Lib List

def lengthPrefixed (nals : List Bytes) : Bytes :=
  nals.flatMap fun nal => bigEndian nal.length 4 ++ nal

def startCoded (nals : List Bytes) : Bytes := nals.flatMap fun nal => [0, 0, 0, 1] ++ nal

/-- No start code begins anywhere, whether in a unit, in a length or across them. -/
def NoStartCode (data : Bytes) : Prop :=
  ∀ position < data.length, startCodeSizeAt (data.drop position) = 0

instance (data : Bytes) : Decidable (NoStartCode data) :=
  inferInstanceAs (Decidable (∀ position < data.length, _))

instance (nal : Bytes) : Decidable (Plain nal) :=
  inferInstanceAs (Decidable (nal ≠ [] ∧ ∀ position < nal.length, _))

theorem lengthPrefixedFrom_units (filled : ∀ nal ∈ nals, nal ≠ [])
    (short : ∀ nal ∈ nals, nal.length < 2 ^ 32) (enough : nals.length ≤ fuel) :
    lengthPrefixedFrom 4 fuel (lengthPrefixed nals) = some nals := by
  induction nals generalizing fuel with
  | nil => cases fuel <;> rfl
  | cons nal nals ih =>
    obtain ⟨here, filled⟩ := forall_mem_cons.mp filled
    obtain ⟨fits, short⟩ := forall_mem_cons.mp short
    cases fuel with
    | zero => cases enough
    | succ fuel =>
      have rest := ih filled short (Nat.le_of_succ_le_succ enough)
      have size : (bigEndian nal.length 4).length = 4 := length_bigEndian _ _
      rw [lengthPrefixed] at rest
      rw [lengthPrefixed, flatMap_cons, append_assoc, lengthPrefixedFrom, length_append, size,
        if_neg (by omega), take_left' size, drop_left' size, bigEndianValue_bigEndian fits]
      dsimp only
      rw [length_append, if_neg, take_left, drop_left, rest, Option.map_some]
      rw [not_or]
      exact ⟨mt length_eq_zero_iff.mp here, by omega⟩

theorem splitLengthPrefixed_units (units : nals ≠ []) (filled : ∀ nal ∈ nals, nal ≠ [])
    (short : ∀ nal ∈ nals, nal.length < 2 ^ 32) :
    splitLengthPrefixed 4 (lengthPrefixed nals) = some nals := by
  rw [splitLengthPrefixed, lengthPrefixedFrom_units filled short]
  · rw [Option.filter_some, if_pos]
    rw [List.isEmpty_eq_false_iff.mpr units]
    rfl
  · rw [lengthPrefixed, length_flatMap]
    refine le_trans (le_of_eq (length_map _).symm)
      (length_le_sum_of_one_le _ fun length member => ?_)
    obtain ⟨nal, -, rfl⟩ := mem_map.mp member
    rw [length_append, length_bigEndian]
    omega

theorem splitAnnexB_of_noStartCode (empty : NoStartCode data) : splitAnnexB data = [] := by
  rw [splitAnnexB, findStartCode_of_plain empty, drop_length]
  cases data <;> rfl

theorem splitNals_of_noStartCode (units : nals ≠ []) (filled : ∀ nal ∈ nals, nal ≠ [])
    (short : ∀ nal ∈ nals, nal.length < 2 ^ 32) (absent : NoStartCode (lengthPrefixed nals)) :
    splitNals (lengthPrefixed nals) = nals := by
  rw [splitNals, splitAnnexB_of_noStartCode absent, splitLengthPrefixed_units units filled short]
  rfl

theorem lengthPrefixed_single (single : ∀ nal ∈ nals, nal.length = 1) :
    lengthPrefixed nals = startCoded nals := by
  refine flatMap_congr fun nal member => ?_
  rw [single nal member]
  rfl

theorem startCodeSizeAt_cases (code : startCodeSizeAt data ≠ 0) :
    ∃ front body, data = front ++ [0, 0, 1] ++ body ∧ data.drop (startCodeSizeAt data) = body ∧
      body.length + startCodeSizeAt data = data.length := by
  unfold startCodeSizeAt at *
  split at code
  · exact ⟨[], _, rfl, rfl, rfl⟩
  · exact ⟨[0], _, rfl, rfl, rfl⟩
  · exact absurd rfl code

theorem startCodeSizeAt_findStartCode (data : Bytes) : data.drop (findStartCode data) = [] ∨
    startCodeSizeAt (data.drop (findStartCode data)) ≠ 0 := by
  induction data with
  | nil => exact .inl rfl
  | cons byte data ih =>
    rw [findStartCode]
    split
    · exact .inr ‹_›
    · exact ih

/-- The last unit stands right behind a start code, and at the end where that is not a start code
itself. -/
theorem splitAnnexBFrom_last (enough : data.length ≤ fuel) (code : startCodeSizeAt data ≠ 0) :
    ∃ front behind,
      data = front ++ [0, 0, 1] ++ ((splitAnnexBFrom fuel data).getLast?.getD [] ++ behind) ∧
        (behind = [] ∨ [0, 0, 1] <:+ data) := by
  induction fuel generalizing data with
  | zero =>
    rw [length_eq_zero_iff.mp (Nat.le_zero.mp enough)] at code
    exact absurd rfl code
  | succ fuel ih =>
    obtain ⟨front, body, whole, same, size⟩ := startCodeSizeAt_cases code
    rw [splitAnnexBFrom, if_neg code, same]
    dsimp only
    have first : (if 0 < findStartCode body then [body.take (findStartCode body)]
        else []).getLast?.getD [] = body.take (findStartCode body) := by
      split
      · rfl
      · next zero =>
        rw [Nat.eq_zero_of_not_pos zero]
        rfl
    rw [getLast?_append]
    rcases startCodeSizeAt_findStartCode body with ended | next
    · have last : splitAnnexBFrom fuel [] = [] := by cases fuel <;> rfl
      have all : body.take (findStartCode body) = body := take_of_length_le (drop_eq_nil_iff.mp ended)
      rw [ended, last, getLast?_nil, Option.none_or, first, all]
      exact ⟨front, [], by rwa [append_nil], .inl rfl⟩
    · have below : (body.drop (findStartCode body)).length ≤ fuel := by
        rw [length_drop]
        omega
      obtain ⟨middle, behind, rest, ends⟩ := ih below next
      have split := take_append_drop (findStartCode body) body
      cases pieces : (splitAnnexBFrom fuel (body.drop (findStartCode body))).getLast? with
      | none =>
        rw [pieces] at rest
        have suffix : [0, 0, 1] <:+ body.drop (findStartCode body) := by
          rcases ends with rfl | suffix
          · exact ⟨middle, by rw [rest]; exact (append_nil _).symm⟩
          · exact suffix
        rw [Option.none_or, first]
        refine ⟨front, body.drop (findStartCode body), by rw [split, whole], .inr ?_⟩
        rw [whole]
        exact (suffix.trans (drop_suffix _ _)).trans (suffix_append _ _)
      | some last =>
        rw [pieces] at rest
        rw [Option.some_or]
        refine ⟨front ++ [0, 0, 1] ++ (body.take (findStartCode body) ++ middle), behind, ?_, ?_⟩
        · rw [rest] at split
          refine whole.trans ((congrArg (front ++ [0, 0, 1] ++ ·) split.symm).trans ?_)
          simp only [append_assoc]
        · refine ends.imp_right fun suffix => ?_
          rw [whole]
          exact (suffix.trans (drop_suffix _ _)).trans (suffix_append _ _)

theorem startCodeSizeAt_before (nonempty : data ≠ []) (rest : Bytes) :
    startCodeSizeAt (data ++ 0 :: 0 :: 0 :: rest) = startCodeSizeAt data := by
  rcases data with - | ⟨first, - | ⟨second, - | ⟨third, - | ⟨fourth, tail⟩⟩⟩⟩
  · exact absurd rfl nonempty
  · simp [startCodeSizeAt]
  · simp [startCodeSizeAt]
  · unfold startCodeSizeAt
    split <;> split <;> simp_all
  · rw [cons_append, cons_append, cons_append, cons_append, startCodeSizeAt_cons]
    exact (startCodeSizeAt_cons first second third fourth tail).symm

theorem findStartCode_le (data : Bytes) : findStartCode data ≤ data.length := by
  induction data with
  | nil => exact Nat.le_refl 0
  | cons byte data ih =>
    rw [findStartCode]
    split
    · exact Nat.zero_le _
    · exact Nat.succ_le_succ ih

theorem findStartCode_before (data rest : Bytes) :
    findStartCode (data ++ 0 :: 0 :: 0 :: 1 :: rest) = findStartCode data := by
  induction data with
  | nil => rfl
  | cons byte data ih =>
    rw [findStartCode, ← startCodeSizeAt_before (cons_ne_nil byte data) (1 :: rest), ← ih]
    rfl

theorem splitAnnexBFrom_before (byte : UInt8) (code : data = [] ∨ startCodeSizeAt data ≠ 0)
    (enough : data.length < fuel) (still : data.length ≤ fuel') :
    splitAnnexBFrom fuel (data ++ [0, 0, 0, 1, byte]) = splitAnnexBFrom fuel' data ++ [[byte]] := by
  induction fuel generalizing data fuel' with
  | zero => cases enough
  | succ fuel ih =>
    rcases code with rfl | code
    · have empty : ∀ fuel, splitAnnexBFrom fuel [] = [] := by
        intro fuel
        cases fuel <;> rfl
      have alone : findStartCode [byte] = 1 := by simp [findStartCode, startCodeSizeAt]
      have code : startCodeSizeAt [0, 0, 0, 1, byte] = 4 := rfl
      rw [empty fuel', splitAnnexBFrom, nil_append, nil_append, code, if_neg (by decide)]
      change (if 0 < findStartCode [byte] then [[byte].take (findStartCode [byte])] else []) ++
        splitAnnexBFrom fuel ([byte].drop (findStartCode [byte])) = [[byte]]
      rw [alone]
      exact congrArg ([[byte]] ++ ·) (empty fuel)
    · obtain ⟨front, body, whole, same, size⟩ := startCodeSizeAt_cases code
      have nonempty : data ≠ [] := by
        rintro rfl
        exact code rfl
      cases fuel' with
      | zero => exact absurd (length_eq_zero_iff.mp (Nat.le_zero.mp still)) nonempty
      | succ fuel' =>
        have bound := findStartCode_le body
        have step := @ih (body.drop (findStartCode body)) fuel' (startCodeSizeAt_findStartCode body)
          (by rw [length_drop]; omega) (by rw [length_drop]; omega)
        rw [splitAnnexBFrom, splitAnnexBFrom, startCodeSizeAt_before nonempty [1, byte], if_neg code,
          if_neg code, drop_append_of_le_length (by omega), same]
        dsimp only
        rw [findStartCode_before, take_append_of_le_length bound, drop_append_of_le_length bound,
          step, append_assoc]

theorem splitAnnexB_before (data : Bytes) (byte : UInt8) :
    splitAnnexB (data ++ [0, 0, 0, 1, byte]) = splitAnnexB data ++ [[byte]] := by
  have bound := findStartCode_le data
  rw [splitAnnexB, splitAnnexB, findStartCode_before, drop_append_of_le_length bound]
  refine splitAnnexBFrom_before byte (startCodeSizeAt_findStartCode data) ?_ ?_
  · rw [length_drop, length_append]
    exact Nat.lt_of_le_of_lt (Nat.sub_le _ _) (Nat.lt_add_of_pos_right (Nat.succ_pos _))
  · rw [length_drop]
    exact Nat.sub_le _ _

theorem bigEndian_four (short : value < 2 ^ 32) :
    ∃ first second third fourth : UInt8, bigEndian value 4 = [first, second, third, fourth] ∧
      value = ((first.toNat * 256 + second.toNat) * 256 + third.toNat) * 256 + fourth.toNat := by
  have same := @bigEndianValue_bigEndian value 4 short
  have size := length_bigEndian value 4
  generalize bigEndian value 4 = bytes at same size
  rcases bytes with - | ⟨first, - | ⟨second, - | ⟨third, - | ⟨fourth, - | ⟨fifth, tail⟩⟩⟩⟩⟩
  · cases size
  · cases size
  · cases size
  · cases size
  · exact ⟨first, second, third, fourth, rfl, by simpa [bigEndianValue] using same.symm⟩
  · cases size

/-- Behind a length and its unit no start code ends. -/
theorem not_suffix_lengthPrefixed (plain : Plain nal) (short : nal.length < 2 ^ 32)
    (data : Bytes) : ¬[0, 0, 1] <:+ data ++ (bigEndian nal.length 4 ++ nal) := by
  obtain ⟨first, second, third, fourth, size, value⟩ := bigEndian_four short
  rw [size]
  intro suffix
  rcases nal with - | ⟨byte, - | ⟨other, - | ⟨last, tail⟩⟩⟩
  · exact plain.1 rfl
  · have same := suffix_of_suffix_length_le suffix
      (⟨data ++ [first, second], by simp⟩ : [third, fourth, byte] <:+ _) (Nat.le_refl 3)
    cases same.eq_of_length rfl
    exact absurd value (by simp; omega)
  · have same := suffix_of_suffix_length_le suffix
      (⟨data ++ [first, second, third], by simp⟩ : [fourth, byte, other] <:+ _) (Nat.le_refl 3)
    cases same.eq_of_length rfl
    exact absurd value (by simp; omega)
  · obtain ⟨front, same⟩ := suffix_of_suffix_length_le suffix
      ((suffix_append _ _).trans (suffix_append _ _)) (Nat.le_add_left 3 tail.length)
    have code := plain.2 front.length (by rw [← same]; simp)
    rw [← same, append_assoc, drop_left] at code
    exact absurd code (by decide)

theorem noStartCode_of_drop (empty : data.drop (findStartCode data) = []) : NoStartCode data := by
  induction data with
  | nil => exact fun _ below => absurd below (Nat.not_lt_zero _)
  | cons byte data ih =>
    rw [findStartCode] at empty
    split at empty
    · cases empty
    · intro position below
      cases position with
      | zero => exact not_not.mp ‹_›
      | succ position => exact ih empty position (Nat.lt_of_succ_lt_succ below)

/-- The last piece stands at the end, behind a start code. -/
theorem splitAnnexB_last (plain : Plain nal) (short : nal.length < 2 ^ 32)
    (whole : data = before ++ (bigEndian nal.length 4 ++ nal)) (code : ¬NoStartCode data) :
    ∃ front last, data = front ++ [0, 0, 1] ++ last ∧ (splitAnnexB data).getLast? = some last := by
  have ends := not_suffix_lengthPrefixed plain short before
  rw [← whole] at ends
  have start := (startCodeSizeAt_findStartCode data).resolve_left (mt noStartCode_of_drop code)
  have enough : (data.drop (findStartCode data)).length ≤ data.length := by
    rw [length_drop]
    exact Nat.sub_le _ _
  obtain ⟨front, behind, rest, ending⟩ := splitAnnexBFrom_last enough start
  rw [ending.resolve_right fun suffix => ends (suffix.trans (drop_suffix _ _)), append_nil] at rest
  have joined := (take_append_drop (findStartCode data) data).symm
  rw [rest, ← append_assoc, ← append_assoc] at joined
  rw [splitAnnexB]
  cases pieces : (splitAnnexBFrom data.length (data.drop (findStartCode data))).getLast? with
  | none =>
    rw [pieces, Option.getD_none, append_nil] at joined
    exact absurd ⟨_, joined.symm⟩ ends
  | some last =>
    rw [pieces] at joined
    exact ⟨_, last, joined, rfl⟩

/-- The start code before the last unit is its length. -/
theorem single_of_last (plain : Plain nal) (short : nal.length < 2 ^ 24)
    (whole : data = before ++ (bigEndian nal.length 4 ++ nal))
    (same : splitAnnexB data = nals ++ [nal]) : nal.length = 1 := by
  have fits : nal.length < 2 ^ 32 := by omega
  have code : ¬NoStartCode data := by
    intro codeless
    rw [splitAnnexB_of_noStartCode codeless] at same
    exact append_ne_nil_of_right_ne_nil nals (cons_ne_nil nal []) same.symm
  obtain ⟨front, last, joined, piece⟩ := splitAnnexB_last plain fits whole code
  rw [same, getLast?_concat, Option.some_inj] at piece
  obtain ⟨first, second, third, fourth, size, value⟩ := bigEndian_four fits
  rw [whole, ← piece, size, ← append_assoc] at joined
  have bytes : before ++ [first] ++ [second, third, fourth] = front ++ [0, 0, 1] := by
    rw [append_assoc]
    exact append_cancel_right joined
  cases append_inj_right' bytes rfl
  have low := first.toNat_lt
  rw [value] at short ⊢
  simp at short ⊢
  omega

theorem lengthPrefixed_concat (nals : List Bytes) (nal : Bytes) :
    lengthPrefixed (nals ++ [nal]) = lengthPrefixed nals ++ (bigEndian nal.length 4 ++ nal) := by
  rw [lengthPrefixed, flatMap_append, flatMap_singleton]
  rfl

theorem single_of_splitAnnexB (plain : ∀ nal ∈ nals, Plain nal)
    (short : ∀ nal ∈ nals, nal.length < 2 ^ 24)
    (same : splitAnnexB (lengthPrefixed nals) = nals) : ∀ nal ∈ nals, nal.length = 1 := by
  induction nals using reverseRecOn with
  | nil => exact fun _ member => absurd member not_mem_nil
  | append_singleton nals nal ih =>
    have joined := lengthPrefixed_concat nals nal
    have single := single_of_last (plain nal (by simp)) (short nal (by simp)) joined same
    obtain ⟨byte, rfl⟩ := length_eq_one_iff.mp single
    have code : bigEndian 1 4 = [0, 0, 0, 1] := by decide
    rw [joined, length_singleton, code] at same
    have before := splitAnnexB_before (lengthPrefixed nals) byte
    have others := ih (fun other member => plain other (mem_append_left _ member))
      (fun other member => short other (mem_append_left _ member))
      (append_cancel_right (before.symm.trans same))
    intro other member
    rcases mem_append.mp member with member | member
    · exact others other member
    · exact mem_singleton.mp member ▸ rfl

/-- Units behind their lengths are read as such, and as they are behind start codes, where no start
code shows or all of them have one byte, and for units below 2 ^ 24 only there. -/
theorem splitNals_lengthPrefixed {nals : List Bytes} (units : nals ≠ [])
    (plain : ∀ nal ∈ nals, Plain nal) (short : ∀ nal ∈ nals, nal.length < 2 ^ 32) :
    (NoStartCode (lengthPrefixed nals) ∨ (∀ nal ∈ nals, nal.length = 1) →
      splitNals (lengthPrefixed nals) = nals ∧
        splitNals (lengthPrefixed nals) = splitNals (startCoded nals)) ∧
    ((∀ nal ∈ nals, nal.length < 2 ^ 24) → splitNals (lengthPrefixed nals) = nals →
      NoStartCode (lengthPrefixed nals) ∨ ∀ nal ∈ nals, nal.length = 1) := by
  have coded : splitNals (startCoded nals) = nals := splitNals_startCodes units plain
  constructor
  · intro condition
    rw [coded, and_self]
    rcases condition with codeless | single
    · exact splitNals_of_noStartCode units (fun nal member => (plain nal member).1) short codeless
    · rw [lengthPrefixed_single single, coded]
  · intro small same
    by_contra! neither
    obtain ⟨code, nal, member, other⟩ := neither
    refine other (single_of_splitAnnexB plain small ?_ nal member)
    have nonempty : splitAnnexB (lengthPrefixed nals) ≠ [] := by
      intro empty
      obtain ⟨before, last, rfl⟩ := (eq_nil_or_concat' nals).resolve_left units
      have here := mem_append_right before (mem_singleton_self last)
      obtain ⟨front, piece, -, found⟩ := splitAnnexB_last (plain last here) (short last here)
        (lengthPrefixed_concat before last) code
      rw [empty] at found
      contradiction
    rwa [splitNals, if_pos] at same
    rw [List.isEmpty_eq_false_iff.mpr nonempty]
    rfl

theorem splitNals_lengthPrefixed_slices :
    splitNals (lengthPrefixed [[0x65, 0x88], [0x41, 0x9a, 0x22]]) =
        [[0x65, 0x88], [0x41, 0x9a, 0x22]] ∧
      splitNals (lengthPrefixed [[0x65, 0x88], [0x41, 0x9a, 0x22]]) =
        splitNals (startCoded [[0x65, 0x88], [0x41, 0x9a, 0x22]]) :=
  (splitNals_lengthPrefixed (by decide) (by decide) (by decide)).1 (.inl (by decide))

/-- The length of an end of sequence is a start code, and the unit before it is lost. -/
theorem splitNals_endOfSequence :
    (∀ nal ∈ ([[0x65, 0x88], [0x0A]] : List Bytes), Plain nal) ∧
      splitNals (lengthPrefixed [[0x65, 0x88], [0x0A]]) = [[0x0A]] := by
  decide

end SwStack.Rtp
