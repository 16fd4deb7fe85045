import SwStack.PieceTable.LineIndex

/-! The table holds a text: its pieces, its counters and its line index agree with it. Every edit
keeps this, as long as the newlines and the pieces can be counted by an `int`. -/
namespace SwStack.PieceTable

open SwStack.Lib SwStack.Types List

namespace SwPieceTable

variable {table : SwPieceTable}

structure Holds (table : SwPieceTable) (text : Bytes) : Prop where
  sound : ∀ piece ∈ table.pieces, table.Sound piece
  contents : table.contents table.pieces = text
  totalLength : table.totalLength = text.length
  totalNewlines : table.totalNewlines = text.count newline
  lineIndex : table.lineIndexReady = true → table.lineIndex = lineStarts newline text
  few : table.pieces.length < 2 ^ 31
  lines : text.count newline + 1 < 2 ^ 31
  size : text.length < 2 ^ 64

variable {pos : Nat}

theorem splitPieceAt_eq (few : table.pieces.length < 2 ^ 31) : table.splitPieceAt pos =
      ({ table with pieces := (table.splitPieces pos table.pieces 0).1 },
        (table.splitPieces pos table.pieces 0).2) := by
  have empty : table.pieces.drop (scanned table.pieces).length = [] := by
    rw [scanned_small few, drop_length]
  unfold splitPieceAt
  rw [empty, scanned_small few]
  dsimp only
  rw [append_nil]

theorem splitPieceAt_with {pieces : List Piece} (few : pieces.length < 2 ^ 31) :
    ({ table with pieces := pieces } : SwPieceTable).splitPieceAt pos =
      ({ table with pieces := (table.splitPieces pos pieces 0).1 },
        (table.splitPieces pos pieces 0).2) := by
  have same := @splitPieces_congr table { table with pieces := pieces } rfl rfl pos pieces 0
  rw [splitPieceAt_eq few]
  dsimp only
  rw [same]

/-- The buffer of added text grows at its end: the pieces keep their text. -/
theorem sound_added (sound : table.Sound piece) (text : Bytes) :
    ({ table with add := table.add ++ text } : SwPieceTable).pieceData piece =
        table.pieceData piece ∧
      ({ table with add := table.add ++ text } : SwPieceTable).Sound piece := by
  have inside := sound.inside
  have same : ({ table with add := table.add ++ text } : SwPieceTable).pieceData piece =
      table.pieceData piece := by
    unfold pieceData
    cases buffer : piece.buffer with
    | original => rfl
    | add =>
      rw [buffer] at inside
      have length : piece.start + piece.length ≤ table.add.length := inside
      change ((table.add ++ text).drop piece.start).take piece.length =
        (table.add.drop piece.start).take piece.length
      rw [drop_append_of_le_length (by omega), take_append_of_le_length]
      rw [length_drop]
      omega
  refine ⟨same, sound.positive, inside.trans ?_, ?_⟩
  · cases piece.buffer with
    | original => exact le_rfl
    | add =>
      change table.add.length ≤ (table.add ++ text).length
      rw [length_append]
      exact Nat.le_add_right _ _
  · rw [same, sound.newlineCount]

theorem contents_added {pieces : List Piece} (sound : ∀ piece ∈ pieces, table.Sound piece)
    (text : Bytes) : ({ table with add := table.add ++ text } : SwPieceTable).contents pieces =
      table.contents pieces := by
  induction pieces with
  | nil => rfl
  | cons piece rest ih =>
    obtain ⟨first, later⟩ := forall_mem_cons.mp sound
    rw [contents_cons, contents_cons, ih later, (sound_added first text).1]

variable {text : Bytes}

theorem Holds.buildLineIndex (holds : table.Holds text) : table.buildLineIndex.Holds text := by
  have starts : table.scanLines (scanned table.pieces) 0 = lineStartsFrom newline 0 text := by
    rw [scanned_small holds.few, scanLines_eq holds.sound, holds.contents]
  have lines := holds.lines
  unfold SwPieceTable.buildLineIndex
  dsimp only
  rw [starts]
  refine ⟨sound_congr holds.sound rfl rfl, contents_congr holds.contents rfl rfl,
    holds.totalLength, ?_, fun _ => ?_, holds.few, holds.lines, holds.size⟩
  · dsimp only
    rw [length_lineStartsFrom, toInt_small (by omega)]
  · dsimp only
    rw [lineStarts]

theorem holds_setText (lines : text.count newline + 1 < 2 ^ 31)
    (size : text.length < 2 ^ 64) : (setText text).Holds text := by
  unfold setText
  by_cases empty : text = []
  · subst empty
    rw [if_pos rfl, if_pos rfl]
    refine Holds.buildLineIndex ⟨?_, rfl, rfl, rfl, fun ready => (by cases ready), ?_, lines, size⟩
    · exact fun piece inside => absurd inside not_mem_nil
    · exact Nat.two_pow_pos 31
  · rw [if_neg empty, if_neg empty]
    have count : countNewlines text = text.count newline := countNewlines_small (by omega)
    have data (newlineCount : Int) : pieceData
        { originalOwned := text, add := []
          pieces := [{ buffer := .original, start := 0, length := text.length, newlineCount }]
          totalLength := text.length, totalNewlines := newlineCount
          lineIndex := [], lineIndexReady := false }
        { buffer := .original, start := 0, length := text.length, newlineCount } = text := by
      exact List.take_length
    rw [count]
    refine Holds.buildLineIndex ⟨?_, ?_, rfl, rfl, fun ready => (by cases ready), ?_, lines, size⟩
    · intro piece only
      cases mem_singleton.mp only
      refine ⟨length_pos_iff.mpr empty, ?_, ?_⟩
      · rw [Nat.zero_add]
        exact le_rfl
      · rw [data]
    · rw [contents_cons, data, contents_nil, append_nil]
    · exact Nat.one_lt_two_pow (by decide)

theorem holds_new : SwPieceTable.new.Holds [] where
  sound _ inside := absurd inside not_mem_nil
  contents := rfl
  totalLength := rfl
  totalNewlines := rfl
  lineIndex none := by cases none
  few := Nat.two_pow_pos 31
  lines := by decide
  size := Nat.two_pow_pos 64

theorem sound_newPiece {text : Bytes} (nonempty : text ≠ [])
    (few : text.count newline < 2 ^ 31) :
    ({ table with add := table.add ++ text } : SwPieceTable).pieceData
        { buffer := .add, start := table.add.length, length := text.length
          newlineCount := countNewlines text } = text ∧
      ({ table with add := table.add ++ text } : SwPieceTable).Sound
        { buffer := .add, start := table.add.length, length := text.length
          newlineCount := countNewlines text } := by
  have data : ({ table with add := table.add ++ text } : SwPieceTable).pieceData
      { buffer := .add, start := table.add.length, length := text.length
        newlineCount := countNewlines text } = text := by
    change ((table.add ++ text).drop table.add.length).take text.length = text
    rw [drop_left, List.take_length]
  refine ⟨data, length_pos_iff.mpr nonempty, ?_, ?_⟩
  · change table.add.length + text.length ≤ (table.add ++ text).length
    rw [length_append]
  · dsimp only
    rw [data, countNewlines_small few]

theorem placePiece_spec {text inserted : Bytes} {piece : Piece} {pos : Nat}
    (sound : ∀ piece ∈ table.pieces, table.Sound piece)
    (contents : table.contents table.pieces = text) (lines : text.count newline < 2 ^ 31)
    (room : table.pieces.length + 2 < 2 ^ 31) (inside : pos ≤ text.length)
    (newSound : table.Sound piece) (newData : table.pieceData piece = inserted) :
    ∃ pieces, table.placePiece pos piece = { table with pieces := pieces } ∧
      (∀ piece ∈ pieces, table.Sound piece) ∧
      table.contents pieces = text.take pos ++ inserted ++ text.drop pos ∧
      pieces.length < 2 ^ 31 := by
  unfold placePiece
  by_cases empty : table.pieces = []
  · have nothing : text = [] := by
      rw [← contents, empty]
      rfl
    refine ⟨[piece], if_pos empty, forall_mem_singleton.mpr newSound, ?_,
      Nat.one_lt_two_pow (by decide)⟩
    rw [contents_cons, contents_nil, newData, nothing]
    simp
  · obtain ⟨sounds, front, back, size⟩ := @splitPieces_spec table pos table.pieces 0 sound
      (by rwa [contents]) (Nat.zero_le _) (by rwa [contents, Nat.zero_add])
    rw [contents, Nat.sub_zero] at front back
    rw [if_neg empty, splitPieceAt_eq (by omega)]
    dsimp only
    generalize table.splitPieces pos table.pieces 0 = split at *
    refine ⟨_, rfl, ?_, ?_, ?_⟩
    · refine forall_mem_append.mpr ⟨fun piece member => ?_, forall_mem_cons.mpr
        ⟨newSound, fun piece member => ?_⟩⟩
      · exact sounds piece (mem_of_mem_take member)
      · exact sounds piece (mem_of_mem_drop member)
    · rw [contents_append, contents_cons, newData, front, back, append_assoc]
    · rw [length_append, length_cons, length_take, length_drop]
      omega

variable {left right : Bytes}

/-- The pieces and the counters are those of the new text; the index follows. -/
theorem holds_afterInsert (sound : ∀ piece ∈ table.pieces, table.Sound piece)
    (contents : table.contents table.pieces = left ++ inserted ++ right)
    (totalLength : table.totalLength = (left ++ inserted ++ right).length)
    (totalNewlines : table.totalNewlines = (left ++ inserted ++ right).count newline)
    (index : table.lineIndexReady = true → table.lineIndex = lineStarts newline (left ++ right))
    (added : table.add.drop (table.add.length - inserted.length) = inserted)
    (few : table.pieces.length < 2 ^ 31)
    (lines : (left ++ inserted ++ right).count newline + 1 < 2 ^ 31)
    (size : (left ++ inserted ++ right).length < 2 ^ 64) :
    (table.updateLineIndexAfterInsert left.length inserted.length
      (inserted.count newline)).Holds (left ++ inserted ++ right) := by
  obtain ⟨entries, updated⟩ := @updateLineIndexAfterInsert_rest table left.length inserted.length
    (inserted.count newline)
  have entriesEq (ready : table.lineIndexReady = true) :
      entries = lineStarts newline (left ++ inserted ++ right) := by
    rw [← lineIndex_insert ready (index ready) ?_ added lines, updated]
    rw [totalLength, length_append, length_append]
    omega
  rw [updated]
  exact ⟨sound_congr sound rfl rfl, contents_congr contents rfl rfl, totalLength, totalNewlines,
    entriesEq, few, lines, size⟩

theorem holds_afterRemove (sound : ∀ piece ∈ table.pieces, table.Sound piece)
    (contents : table.contents table.pieces = left ++ right)
    (totalLength : table.totalLength = (left ++ right).length)
    (totalNewlines : table.totalNewlines = (left ++ right).count newline)
    (index : table.lineIndexReady = true →
      table.lineIndex = lineStarts newline (left ++ removed ++ right))
    (few : table.pieces.length < 2 ^ 31)
    (lines : (left ++ removed ++ right).count newline + 1 < 2 ^ 31)
    (size : (left ++ removed ++ right).length < 2 ^ 64) :
    (table.updateLineIndexAfterRemove left.length removed.length
      (removed.count newline)).Holds (left ++ right) := by
  obtain ⟨entries, updated⟩ := @updateLineIndexAfterRemove_rest table left.length removed.length
    (removed.count newline)
  have entriesEq (ready : table.lineIndexReady = true) :
      entries = lineStarts newline (left ++ right) := by
    rw [← lineIndex_remove ready (index ready) ?_ lines, updated]
    rw [totalLength, length_append]
    omega
  have fewer : (left ++ right).count newline + 1 < 2 ^ 31 := by
    rw [count_append, count_append] at lines
    rw [count_append]
    omega
  have smaller : (left ++ right).length < 2 ^ 64 := by
    rw [length_append, length_append] at size
    rw [length_append]
    omega
  rw [updated]
  exact ⟨sound_congr sound rfl rfl, contents_congr contents rfl rfl, totalLength, totalNewlines,
    entriesEq, few, fewer, smaller⟩

theorem clamp_pos (text : Bytes) (pos : Nat) :
    text.take (min pos text.length) = text.take pos ∧
      text.drop (min pos text.length) = text.drop pos ∧
      (text.take pos).length = min pos text.length := by
  refine ⟨take_eq_take_iff.mpr (by omega), ?_, length_take⟩
  cases le_total pos text.length with
  | inl inside => rw [min_eq_left inside]
  | inr outside => rw [min_eq_right outside, drop_length, drop_eq_nil_of_le outside]

theorem Holds.insert (holds : table.Holds text)
    (lines : (text.take pos ++ inserted ++ text.drop pos).count newline + 1 < 2 ^ 31)
    (size : (text.take pos ++ inserted ++ text.drop pos).length < 2 ^ 64)
    (room : table.pieces.length + 2 < 2 ^ 31) :
    (table.insert pos inserted).Holds (text.take pos ++ inserted ++ text.drop pos) := by
  unfold SwPieceTable.insert
  by_cases nonempty : inserted = []
  · rw [if_pos nonempty, nonempty, append_nil, take_append_drop]
    exact holds
  rw [if_neg nonempty]
  dsimp only
  obtain ⟨front, back, clamped⟩ := clamp_pos text pos
  have length := holds.totalLength
  have counts := lines
  rw [count_append, count_append] at counts
  have whole : text.count newline = (text.take pos).count newline +
      (text.drop pos).count newline := by
    rw [← count_append, take_append_drop]
  have wholeLength : text.length = (text.take pos).length + (text.drop pos).length := by
    rw [← length_append, take_append_drop]
  have fewInserted : inserted.count newline < 2 ^ 31 := by omega
  have fewBefore : text.count newline < 2 ^ 31 := by omega
  obtain ⟨newData, newSound⟩ := @sound_newPiece table inserted nonempty fewInserted
  have sound : ∀ piece ∈ table.pieces,
      ({ table with add := table.add ++ inserted } : SwPieceTable).Sound piece :=
    fun piece member => (sound_added (holds.sound piece member) inserted).2
  obtain ⟨pieces, placed, sounds, contents, few⟩ :=
    @placePiece_spec { table with add := table.add ++ inserted } text inserted _
      (min pos table.totalLength) sound
      ((contents_added holds.sound inserted).trans holds.contents) fewBefore room
      (by rw [length]; exact min_le_right _ _) newSound newData
  rw [length, front, back] at contents
  rw [placed]
  dsimp only
  rw [countNewlines_small fewInserted, length, ← clamped, holds.totalNewlines]
  refine holds_afterInsert (sound_congr sounds rfl rfl) (contents_congr contents rfl rfl) ?_ ?_ ?_
    ?_ few lines size
  · dsimp only
    rw [length_append, length_append]
    omega
  · dsimp only
    rw [addInt_small (by omega) (by omega), count_append, count_append]
    push_cast
    omega
  · dsimp only
    rw [take_append_drop]
    exact holds.lineIndex
  · dsimp only
    rw [length_append, Nat.add_sub_cancel, drop_left]

theorem erasePieces_spec (sound : ∀ piece ∈ table.pieces, table.Sound piece)
    (contents : table.contents table.pieces = left ++ removed ++ right)
    (lines : (left ++ removed ++ right).count newline < 2 ^ 31)
    (room : table.pieces.length + 2 < 2 ^ 31) :
    ∃ pieces, table.erasePieces left.length (left.length + removed.length) =
        ({ table with pieces := pieces }, (removed.count newline : Int)) ∧
      (∀ piece ∈ pieces, table.Sound piece) ∧ table.contents pieces = left ++ right ∧
      pieces.length < 2 ^ 31 := by
  obtain ⟨sounds, front, back, size⟩ := @splitPieces_spec table left.length table.pieces 0 sound
    (by rwa [contents]) (Nat.zero_le _) (by
      rw [contents, length_append, length_append]
      omega)
  have within := @splitPieces_index table left.length table.pieces 0
  rw [contents, Nat.sub_zero, append_assoc, take_left] at front
  rw [contents, Nat.sub_zero, append_assoc, drop_left] at back
  unfold erasePieces
  rw [splitPieceAt_eq (by omega)]
  dsimp only
  generalize table.splitPieces left.length table.pieces 0 = first at *
  obtain ⟨pieces, startIdx⟩ := first
  dsimp only at *
  have frontSound : ∀ piece ∈ pieces.take startIdx, table.Sound piece :=
    fun piece member => sounds piece (mem_of_mem_take member)
  have backSound : ∀ piece ∈ pieces.drop startIdx, table.Sound piece :=
    fun piece member => sounds piece (mem_of_mem_drop member)
  rw [count_append, count_append] at lines
  obtain ⟨backSounds, middle, rest, backSize⟩ := @splitPieces_spec table
    (left.length + removed.length) (pieces.drop startIdx) left.length backSound
    (by rw [back, count_append]; omega) (Nat.le_add_right _ _)
    (by rw [back, length_append]; omega)
  have backWithin := @splitPieces_index table (left.length + removed.length)
    (pieces.drop startIdx) left.length
  rw [back, Nat.add_sub_cancel_left, take_left] at middle
  rw [back, Nat.add_sub_cancel_left, drop_left] at rest
  have passed := @splitPieces_append table (left.length + removed.length) (pieces.take startIdx)
    (pieces.drop startIdx) 0 frontSound (by rw [front]; omega)
  rw [take_append_drop, front, Nat.zero_add, length_take, min_eq_left within] at passed
  rw [splitPieceAt_with (by omega), passed]
  dsimp only
  generalize table.splitPieces (left.length + removed.length) (pieces.drop startIdx) left.length =
    second at *
  obtain ⟨others, endIdx⟩ := second
  dsimp only at *
  have startLength : (pieces.take startIdx).length = startIdx := by
    rw [length_take, min_eq_left within]
  have kept : (pieces.take startIdx ++ others).take startIdx = pieces.take startIdx := by
    rw [take_append_of_le_length (by omega), take_take, min_self]
  have dropped : (pieces.take startIdx ++ others).drop (startIdx + endIdx) =
      others.drop endIdx := by
    rw [← drop_drop, drop_left' startLength]
  have between : ((pieces.take startIdx ++ others).take (startIdx + endIdx)).drop startIdx =
      others.take endIdx := by
    rw [drop_take, drop_append_of_le_length (by omega), Nat.add_sub_cancel_left]
    have empty : (pieces.take startIdx).drop startIdx = [] := drop_eq_nil_of_le (by omega)
    rw [empty, nil_append]
  have middleSound : ∀ piece ∈ others.take endIdx, table.Sound piece :=
    fun piece member => backSounds piece (mem_of_mem_take member)
  have removedNewlines := foldl_newlineCount middleSound le_rfl (by rw [middle]; omega)
  rw [between, removedNewlines, middle, Int.zero_add, kept, dropped]
  refine ⟨_, rfl, ?_, ?_, ?_⟩
  · refine forall_mem_append.mpr ⟨frontSound, fun piece member => ?_⟩
    exact backSounds piece (mem_of_mem_drop member)
  · rw [contents_append, front, rest]
  · rw [length_drop] at backSize
    rw [length_append, length_drop, startLength]
    omega

theorem Holds.remove (holds : table.Holds text) {length : Nat}
    (fits : pos + length < 2 ^ 64) (room : table.pieces.length + 2 < 2 ^ 31) :
    (table.remove pos length).Holds (text.take pos ++ text.drop (pos + length)) := by
  have total := holds.totalLength
  unfold SwPieceTable.remove
  rw [Nat.mod_eq_of_lt fits]
  by_cases trivial' : length = 0 ∨ table.totalLength = 0
  · rw [if_pos trivial']
    obtain zero | empty := trivial'
    · rw [zero, Nat.add_zero, take_append_drop]
      exact holds
    · have nothing : text = [] := length_eq_zero_iff.mp (total.symm.trans empty)
      rw [nothing] at holds ⊢
      simpa using holds
  rw [if_neg trivial']
  dsimp only
  by_cases outside : min (pos + length) table.totalLength ≤ min pos table.totalLength
  · rw [if_pos outside, take_of_length_le (by omega), drop_eq_nil_of_le (by omega),
      append_nil]
    exact holds
  rw [if_neg outside]
  have parts : text = text.take pos ++ (text.drop pos).take length ++ text.drop (pos + length) := by
    rw [append_assoc, ← drop_drop, take_append_drop, take_append_drop]
  have startLength : (text.take pos).length = pos := by
    rw [length_take]
    omega
  have removedLength : ((text.drop pos).take length).length =
      min (pos + length) text.length - pos := by
    rw [length_take, length_drop]
    omega
  generalize text.take pos = left at *
  generalize (text.drop pos).take length = removed at *
  generalize text.drop (pos + length) = right at *
  subst parts
  have lines := holds.lines
  have start : min pos table.totalLength = left.length := by omega
  have finish : min (pos + length) table.totalLength = left.length + removed.length := by omega
  obtain ⟨pieces, erased, sounds, contents, few⟩ :=
    erasePieces_spec holds.sound holds.contents (by omega) room
  rw [start, finish, erased]
  dsimp only
  rw [Nat.add_sub_cancel_left]
  have counts := lines
  rw [count_append, count_append] at counts
  refine holds_afterRemove (sound_congr sounds rfl rfl) (contents_congr contents rfl rfl) ?_ ?_
    holds.lineIndex few lines holds.size
  · dsimp only
    rw [total, length_append, length_append, length_append]
    omega
  · dsimp only
    rw [holds.totalNewlines, count_append, count_append, count_append,
      addInt_small (by push_cast; omega) (by push_cast; omega)]
    push_cast
    omega

end SwPieceTable

end SwStack.PieceTable
