import SwStack.PieceTable.Edits
import SwStack.Lib.Transition

/-! What the queries return when the table holds a text: they read the text, and its lines, with or
without the line index. -/
open List

namespace SwStack.PieceTable

open SwStack.Lib SwStack.Types

namespace SwPieceTable

variable {table : SwPieceTable} {text : Bytes}

namespace Holds

theorem scanned (holds : table.Holds text) : scanned table.pieces = table.pieces :=
  scanned_small holds.few

theorem charAt (holds : table.Holds text) (pos : Nat) : table.charAt pos = text.getD pos 0 := by
  unfold SwPieceTable.charAt
  rw [holds.scanned]
  split
  · rename_i outside
    rw [holds.totalLength] at outside
    rw [getD_eq_default _ _ outside]
  · rw [charAt_go holds.sound (Nat.zero_le _), holds.contents, Nat.sub_zero]

theorem substr (holds : table.Holds text) {pos length : Nat} (fits : pos + length < 2 ^ 64) :
    table.substr pos length = (text.drop pos).take length := by
  have total := holds.totalLength
  unfold SwPieceTable.substr
  split
  · rename_i empty
    obtain zero | outside := empty
    · rw [zero, take_zero]
    · rw [drop_eq_nil_of_le (by omega), take_nil]
  · obtain ⟨_, sound, head, same⟩ := @skipPieces_spec _ pos _ _ holds.sound (Nat.zero_le _)
    rw [holds.scanned, Nat.mod_eq_of_lt fits]
    dsimp only
    rw [copyPieces_spec sound head, ← same, holds.contents, Nat.sub_zero]
    refine take_eq_take_iff.mpr ?_
    rw [length_drop]
    omega

theorem toPlainText (holds : table.Holds text) : table.toPlainText = text := by
  have total := holds.totalLength
  have contents := holds.contents
  have visible := holds.scanned
  unfold SwPieceTable.toPlainText
  split
  · rename_i empty
    exact (length_eq_zero_iff.mp (total.symm.trans empty)).symm
  · split
    · rename_i piece only
      rw [only, contents_cons, contents_nil, append_nil] at contents
      split
      · rename_i whole
        rw [← contents]
        unfold pieceData
        rw [whole.1, whole.2.1, whole.2.2]
        exact List.take_length.symm
      · exact contents
    · rw [visible]
      exact contents

theorem equals (holds : table.Holds text) (other : Bytes) :
    table.equals other = decide (other = text) := by
  unfold SwPieceTable.equals
  rw [holds.scanned, equals_go holds.sound, holds.contents, holds.totalLength, drop_zero,
    Bool.eq_iff_iff]
  simp only [Bool.and_eq_true, decide_eq_true_eq]
  constructor
  · rintro ⟨length, same⟩
    rwa [← length, List.take_length] at same
  · rintro rfl
    exact ⟨rfl, List.take_length⟩

end Holds

theorem lineForOffsetFromPieces_go {pos cumulative : Nat} {pieces : List Piece}
    {newlineCount : Int} (sound : ∀ piece ∈ pieces, table.Sound piece) (low : 0 ≤ newlineCount)
    (few : newlineCount + (table.contents pieces).count newline < 2 ^ 31)
    (from' : cumulative ≤ min pos table.totalLength) :
    lineForOffsetFromPieces.go table pos pieces cumulative newlineCount =
      newlineCount +
        ((table.contents pieces).take (min pos table.totalLength - cumulative)).count newline := by
  induction pieces generalizing cumulative newlineCount with
  | nil => simp [lineForOffsetFromPieces.go]
  | cons piece rest ih =>
    obtain ⟨first, later⟩ := forall_mem_cons.mp sound
    have length := first.length
    have count := first.newlineCount
    rw [contents_cons, count_append] at few
    push_cast at few
    rw [lineForOffsetFromPieces.go, contents_cons]
    split
    · rename_i inside
      have whole : (table.pieceData piece).take (min pos table.totalLength - cumulative) =
          table.pieceData piece := take_of_length_le (by omega)
      rw [ih later (by rw [addInt_small] <;> omega) (by rw [addInt_small] <;> omega) inside,
        addInt_small (by omega) (by omega), take_append, whole, length, Nat.sub_sub,
        count_append, count]
      push_cast
      exact Int.add_assoc _ _ _
    · rename_i outside
      have fewer := List.Sublist.count_le newline
        (take_sublist (min pos table.totalLength - cumulative) (table.pieceData piece))
      rw [take_append_of_le_length (by omega), countNewlines_small (by omega),
        addInt_small (by omega) (by omega)]

theorem Holds.lineForOffset (holds : table.Holds text) (pos : Nat) :
    table.lineForOffset pos = (text.take pos).count newline := by
  have total := holds.totalLength
  have lines := holds.lines
  obtain ⟨front, _, clamped⟩ := clamp_pos text pos
  unfold SwPieceTable.lineForOffset
  cases ready : table.lineIndexReady with
  | true =>
    have index := holds.lineIndex ready
    have nonempty : table.lineIndex.isEmpty = false := by rw [index]; rfl
    rw [nonempty, Bool.not_false, Bool.and_true, if_pos rfl]
    have size := @length_lineStarts _ _ newline text
    rw [← take_append_drop pos text, lineStarts_append] at index
    rw [← take_append_drop pos text, lineStarts_append] at size
    rw [take_append_drop] at size
    rw [lineForOffsetFromIndex_spec index (by omega) (lineStarts_ne_nil _), length_lineStarts]
    · omega
    · rw [total, ← clamped]
      exact (lineStarts_around _ []).1
    · rw [total, ← clamped]
      exact (lineStarts_around _ _).2
  | false =>
    rw [Bool.false_and, if_neg Bool.false_ne_true]
    unfold lineForOffsetFromPieces
    rw [holds.scanned, lineForOffsetFromPieces_go holds.sound le_rfl
      (by rw [holds.contents]; omega) (Nat.zero_le _), holds.contents, Nat.sub_zero, total, front,
      Int.zero_add]

theorem scanPiece_spec {lineIdx newlinesSeen : Int} {data : Bytes} {position needed : Nat}
    (line : newlinesSeen + needed + 1 = lineIdx) (low : 0 ≤ newlinesSeen) (high : lineIdx < 2 ^ 31) :
    (scanPiece lineIdx data position newlinesSeen).2 =
      (lineStartsFrom newline position data)[needed]? := by
  induction data generalizing position newlinesSeen needed with
  | nil => rfl
  | cons byte rest ih =>
    rw [scanPiece, lineStartsFrom]
    by_cases found : byte = newline
    · rw [if_pos found, if_pos found]
      dsimp only
      rw [addInt_small (by omega) (by omega)]
      cases needed with
      | zero =>
        rw [if_pos (by omega)]
        rfl
      | succ needed =>
        rw [if_neg (by omega), getElem?_cons_succ]
        exact ih (by push_cast at line; omega) (by omega)
    · rw [if_neg found, if_neg found]
      exact ih line low

theorem lineStartFromPieces_go {lineIdx newlinesSeen : Int} {pieces : List Piece}
    {cumulative needed : Nat} (sound : ∀ piece ∈ pieces, table.Sound piece)
    (few : newlinesSeen + (table.contents pieces).count newline < 2 ^ 31)
    (line : newlinesSeen + needed + 1 = lineIdx) (low : 0 ≤ newlinesSeen)
    (high : lineIdx < 2 ^ 31) :
    lineStartFromPieces.go table lineIdx pieces cumulative newlinesSeen =
      (lineStartsFrom newline cumulative (table.contents pieces))[needed]?.getD
        table.totalLength := by
  induction pieces generalizing cumulative newlinesSeen needed with
  | nil => rfl
  | cons piece rest ih =>
    obtain ⟨first, later⟩ := forall_mem_cons.mp sound
    have count := first.newlineCount
    have size := @length_lineStartsFrom _ _ newline cumulative (table.pieceData piece)
    rw [contents_cons, count_append] at few
    push_cast at few
    rw [lineStartFromPieces.go, contents_cons, lineStartsFrom_append, first.length]
    rw [addInt_small (by omega) (by omega), count]
    split
    · rename_i before
      rw [@ih _ _ (needed - (table.pieceData piece).count newline) later (by omega) (by omega)
        (by omega), getElem?_append_right (by omega), size]
    · rename_i here
      have inside : needed < (lineStartsFrom newline cumulative (table.pieceData piece)).length := by
        omega
      have found := @scanPiece_spec _ _ (table.pieceData piece) cumulative _ line low high
      rw [getElem?_append_left inside]
      rw [getElem?_eq_getElem inside] at found ⊢
      generalize scanPiece lineIdx (table.pieceData piece) cumulative newlinesSeen = scan at found
      obtain ⟨seen, start⟩ := scan
      dsimp only at found
      rw [found]
      rfl

theorem Holds.lineStart (holds : table.Holds text) {line : Nat} (counted : line < 2 ^ 31) :
    table.lineStart line = (lineStarts newline text)[line]?.getD text.length := by
  have total := holds.totalLength
  have lines := holds.lines
  unfold SwPieceTable.lineStart
  cases line with
  | zero =>
    rw [if_pos (by simp)]
    rfl
  | succ line =>
    rw [if_neg (by omega)]
    cases ready : table.lineIndexReady with
    | true =>
      have index := holds.lineIndex ready
      have size := @length_lineStarts _ _ newline text
      rw [if_pos rfl, index, toInt_small (by omega), Int.toNat_natCast]
      split
      · rename_i inside
        rw [getD_eq_getElem?_getD, getElem?_eq_getElem (by omega)]
        rfl
      · rename_i outside
        rw [getElem?_eq_none (by omega), total]
        rfl
    | false =>
      rw [if_neg Bool.false_ne_true]
      unfold lineStartFromPieces
      rw [if_neg (by omega), holds.scanned, @lineStartFromPieces_go _ _ _ _ _ line holds.sound
        (by rw [holds.contents]; omega) (by push_cast; omega) le_rfl (by omega), holds.contents,
        total, lineStarts, getElem?_cons_succ]

end SwPieceTable

end SwStack.PieceTable

/-! The table refines an ordinary string: after any edits its queries, its cached counts and its
line index are those of the string. -/
namespace SwStack.PieceTable

open SwStack.Lib SwStack.Types

namespace SwPieceTable

variable {table : SwPieceTable} {text : Bytes}

/-- The same table when its index is not ready. -/
def withoutIndex (table : SwPieceTable) : SwPieceTable := { table with lineIndexReady := false }

theorem Holds.withoutIndex (holds : table.Holds text) : table.withoutIndex.Holds text :=
  ⟨sound_congr holds.sound rfl rfl, contents_congr holds.contents rfl rfl, holds.totalLength,
    holds.totalNewlines, fun ready => (by cases ready), holds.few, holds.lines, holds.size⟩

/-- The lines of the table are those of the text. -/
structure LinesOf (table : SwPieceTable) (text : Bytes) : Prop where
  lineForOffset : ∀ pos, table.lineForOffset pos = (text.take pos).count newline
  lineStart : ∀ (index : Nat) (line : Bytes), (text.splitOn newline)[index]? = some line →
    table.lineStart index =
      (((text.splitOn newline).take index).map fun line => line.length + 1).sum
  lineLength : ∀ (index : Nat) (line : Bytes), (text.splitOn newline)[index]? = some line →
    table.lineLength index = line.length
  lineContent : ∀ (index : Nat) (line : Bytes), (text.splitOn newline)[index]? = some line →
    table.lineContent index = line

theorem Holds.line (holds : table.Holds text) {index : Nat} {line : Bytes}
    (found : (text.splitOn newline)[index]? = some line) :
    table.lineStart index =
        (((text.splitOn newline).take index).map fun line => line.length + 1).sum ∧
      table.lineLength index = line.length ∧ table.lineContent index = line := by
  have total := holds.totalLength
  have lines := holds.lines
  have inside := (List.getElem?_eq_some_iff.mp found).1
  rw [length_splitOn] at inside
  obtain ⟨start, at', sum, next⟩ := line_at 0 found
  rw [Nat.zero_add] at at' next
  have startEq : table.lineStart index = start := by
    rw [holds.lineStart (by omega)]
    unfold lineStarts
    rw [at']
    rfl
  have bound := mem_lineStarts (mem_of_getElem? at')
  have nextIndex : addInt index 1 = ((index + 1 : Nat) : Int) := by
    rw [addInt_small (by omega) (by omega)]
    rfl
  have nextStart : table.lineStart (addInt index 1) =
      (lineStarts newline text)[index + 1]?.getD text.length := by
    rw [nextIndex, holds.lineStart (by omega)]
  unfold lineStarts at nextStart
  have lengthEq : table.lineLength index = line.length := by
    unfold lineLength
    rw [startEq, nextStart]
    dsimp only
    obtain ⟨whole, last⟩ | ⟨after, split, later⟩ := next
    · have size : text.length - start = line.length := by rw [← length_drop, whole]
      rw [last, Option.getD_none]
      split
      · rw [total, size]
      · rename_i more
        have absent := not_mem_line (mem_of_getElem? found)
        have character : table.charAt (text.length - 1) ≠ newline := by
          intro ends
          rw [holds.charAt] at ends
          rw [getD_eq_getElem _ _ (by omega)] at ends
          have position : start + (line.length - 1) = text.length - 1 := by omega
          have final : (text.drop start)[line.length - 1]? = some newline := by
            rw [getElem?_drop, position, getElem?_eq_getElem (by omega), ends]
          rw [whole] at final
          exact absent (mem_of_getElem? final)
        rw [if_neg (fun ends => character ends.2.2), size]
    · have drop := congrArg List.length split
      rw [length_drop, length_append, length_cons] at drop
      have character : table.charAt (start + line.length + 1 - 1) = newline := by
        rw [holds.charAt, Nat.add_sub_cancel, getD_eq_getElem?_getD, ← getElem?_drop,
          split, getElem?_append_right le_rfl, Nat.sub_self]
        rfl
      rw [later, Option.getD_some, if_neg (by omega), if_pos ⟨by omega, by omega, character⟩]
      omega
  have prefix' : (text.drop start).take line.length = line := by
    obtain ⟨whole, _⟩ | ⟨after, split, _⟩ := next
    · rw [whole, List.take_length]
    · rw [split, take_left]
  refine ⟨startEq.trans sum, lengthEq, ?_⟩
  unfold lineContent
  rw [startEq, lengthEq]
  dsimp only
  split
  · rename_i empty
    exact (length_eq_zero_iff.mp empty.1).symm
  · have size := holds.size
    have fits : start + line.length < 2 ^ 64 := by
      have shorter := congrArg List.length prefix'
      rw [length_take, length_drop] at shorter
      omega
    rw [holds.substr fits, prefix']

theorem Holds.linesOf (holds : table.Holds text) : table.LinesOf text where
  lineForOffset := holds.lineForOffset
  lineStart _ _ found := (holds.line found).1
  lineLength _ _ found := (holds.line found).2.1
  lineContent _ _ found := (holds.line found).2.2

/-- The table agrees with a string in everything that can be asked. -/
structure Agrees (table : SwPieceTable) (text : Bytes) : Prop where
  toPlainText : table.toPlainText = text
  totalLength : table.totalLength = text.length
  charAt : ∀ pos, table.charAt pos = text.getD pos 0
  substr : ∀ pos length, pos + length < 2 ^ 64 →
    table.substr pos length = (text.drop pos).take length
  equals : ∀ other, table.equals other = decide (other = text)
  nonempty : ∀ piece ∈ table.pieces, 0 < piece.length
  newlineCounts : ∀ piece ∈ table.pieces,
    piece.newlineCount = (table.pieceData piece).count newline
  totalNewlines : table.totalNewlines = text.count newline
  lineIndex : table.lineIndexReady = true → table.lineIndex = table.buildLineIndex.lineIndex
  lines : table.LinesOf text
  linesWithoutIndex : table.withoutIndex.LinesOf text

theorem Holds.agrees (holds : table.Holds text) : table.Agrees text where
  toPlainText := holds.toPlainText
  totalLength := holds.totalLength
  charAt := holds.charAt
  substr _ _ fits := holds.substr fits
  equals := holds.equals
  nonempty piece member := (holds.sound piece member).positive
  newlineCounts piece member := (holds.sound piece member).newlineCount
  totalNewlines := holds.totalNewlines
  lineIndex ready := (holds.lineIndex ready).trans (holds.buildLineIndex.lineIndex rfl).symm
  lines := holds.linesOf
  linesWithoutIndex := holds.withoutIndex.linesOf

end SwPieceTable

/-- A table and the string that was edited in the same way. -/
structure Editing where
  table : SwPieceTable
  text : Bytes

def Editing.step (editing : Editing) (action : Action) : Option Editing :=
  some { table := PieceTable.step editing.table action, text := edit editing.text action }

/-- The positions of a removal do not overflow; the new text can be addressed, its lines counted by
an `int`, and so can the pieces. -/
structure Countable (editing : Editing) (action : Action) : Prop where
  fits : ∀ pos length, action = .remove pos length → pos + length < 2 ^ 64
  size : (edit editing.text action).length < 2 ^ 64
  lines : (edit editing.text action).count newline + 1 < 2 ^ 31
  room : editing.table.pieces.length + 2 < 2 ^ 31

/-- The start: a table as it is constructed, and no text. -/
def Editing.start : Editing := { table := .new, text := [] }

def Editing.Holds (editing : Editing) : Prop := editing.table.Holds editing.text

theorem holds_step (holds : editing.Holds) (countable : Countable editing action) :
    (step editing.table action).Holds (edit editing.text action) := by
  cases action with
  | setText text => exact SwPieceTable.holds_setText countable.lines countable.size
  | insert pos text => exact holds.insert countable.lines countable.size countable.room
  | remove pos length => exact holds.remove (countable.fits pos length rfl) countable.room
  | buildLineIndex => exact holds.buildLineIndex

/-- The table refines the string in every state of a run whose edits can be counted. -/
theorem agrees_of_countable {editing : Editing}
    (run : Reaches Editing.step Countable .start editing) :
    editing.table.Agrees editing.text := by
  have holds : editing.Holds := by
    refine run.invariant (show Editing.Holds .start from SwPieceTable.holds_new) ?_
    intro state action following holds countable stepped
    cases stepped
    exact holds_step holds countable
  exact SwPieceTable.Holds.agrees holds

theorem agrees_of_countable_edited :
    (step (step .new (.setText [97, 10, 98])) (.insert 1 [10, 99])).Agrees
      (edit (edit [] (.setText [97, 10, 98])) (.insert 1 [10, 99])) := by
  have first : Reaches Editing.step Countable .start
      { table := step .new (.setText [97, 10, 98]), text := edit [] (.setText [97, 10, 98]) } := by
    refine Reaches.next .refl (show Countable .start (.setText [97, 10, 98]) from ?_) rfl
    exact ⟨fun _ _ never => (by cases never), by decide +kernel, by decide +kernel,
      by decide +kernel⟩
  have second : Reaches Editing.step Countable .start
      { table := step (step .new (.setText [97, 10, 98])) (.insert 1 [10, 99])
        text := edit (edit [] (.setText [97, 10, 98])) (.insert 1 [10, 99]) } := by
    refine Reaches.next first (show Countable _ (.insert 1 [10, 99]) from ?_) rfl
    exact ⟨fun _ _ never => (by cases never), by decide +kernel, by decide +kernel,
      by decide +kernel⟩
  have agrees := agrees_of_countable second
  dsimp only at agrees
  exact agrees

theorem setText_lineIndex (nonempty : text ≠ []) :
    (SwPieceTable.setText text).lineIndex = lineStarts newline text ∧
      (SwPieceTable.setText text).totalLength = text.length := by
  unfold SwPieceTable.setText SwPieceTable.buildLineIndex
  dsimp only
  rw [if_neg nonempty, scanned_small (Nat.one_lt_two_pow (by decide)), SwPieceTable.scanLines,
    SwPieceTable.scanLines, append_nil, lineStarts]
  refine ⟨?_, rfl⟩
  have data : (text.drop 0).take text.length = text := List.take_length
  unfold SwPieceTable.pieceData SwPieceTable.bufferPtr
  dsimp only
  rw [data]

/-- With 2³¹ - 1 newlines the size of the index does not fit in an `int`: the second line is said to
start at the end of the text. -/
theorem lineStart_fails_of_lines :
    (step .new (.setText (List.replicate (2 ^ 31 - 1) newline))).lineStart 1 = 2 ^ 31 - 1 ∧
      ¬ (step .new (.setText (List.replicate (2 ^ 31 - 1) newline))).Agrees
        (List.replicate (2 ^ 31 - 1) newline) := by
  have many : List.replicate (2 ^ 31 - 1) newline ≠ [] := by
    rw [Ne, replicate_eq_nil_iff]
    decide
  obtain ⟨index, total⟩ := setText_lineIndex many
  rw [length_replicate] at total
  have size := congrArg List.length index
  rw [length_lineStarts, count_replicate_self] at size
  have second : (step .new (.setText (List.replicate (2 ^ 31 - 1) newline))).lineStart 1 =
      2 ^ 31 - 1 := by
    have ready : (SwPieceTable.setText (List.replicate (2 ^ 31 - 1) newline)).lineIndexReady =
        true := rfl
    have negative : ¬ ((1 : Int) < toInt (2 ^ 31 - 1 + 1)) := by decide
    change (SwPieceTable.setText _).lineStart 1 = _
    unfold SwPieceTable.lineStart
    rw [ready, size, total, if_neg (by decide), if_pos rfl, if_neg negative]
  refine ⟨second, fun agrees => ?_⟩
  have split : (List.replicate (2 ^ 31 - 1) newline).splitOn newline =
      [] :: (List.replicate (2 ^ 31 - 2) newline).splitOn newline := by
    have head : List.replicate (2 ^ 31 - 1) newline =
        [] ++ newline :: List.replicate (2 ^ 31 - 2) newline := replicate_succ
    rw [head, splitOn_append_cons_self_of_not_mem not_mem_nil]
  have more := @length_splitOn _ _ newline (List.replicate (2 ^ 31 - 1) newline)
  rw [count_replicate_self] at more
  have start := agrees.lines.lineStart 1 _ (getElem?_eq_getElem (by rw [more]; decide))
  have claimed : (step .new (.setText (List.replicate (2 ^ 31 - 1) newline))).lineStart 1 = 1 := by
    refine start.trans ?_
    rw [split]
    rfl
  rw [second] at claimed
  cases claimed

end SwStack.PieceTable
