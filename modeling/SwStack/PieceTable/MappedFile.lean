import SwStack.PieceTable.Refinement

/-! A mapped file. Its newlines are left to a builder, which scans the file and publishes its line
index while the text is edited. What is published describes the file, not the text, and the piece of
the file says until then that it has no newlines. -/
namespace SwStack.PieceTable

open SwStack.Lib SwStack.Types List

namespace SwPieceTable

/-- The file is the original buffer, in one piece whose newlines are not counted. -/
def setMappedFile (file : Bytes) : SwPieceTable where
  originalOwned := file
  add := []
  pieces := if file = [] then [] else
    [{ buffer := .original, start := 0, length := file.length, newlineCount := 0 }]
  totalLength := file.length
  totalNewlines := 0
  lineIndex := []
  lineIndexReady := false

def setLineIndex (table : SwPieceTable) (index : List Nat) (totalNewlines : Int) :
    SwPieceTable :=
  { table with
    lineIndex := index
    totalNewlines
    pieces := match table.pieces with
      | [piece] =>
        [if piece.buffer = .original then { piece with newlineCount := totalNewlines } else piece]
      | pieces => pieces
    lineIndexReady := true }

end SwPieceTable

/-- What is done to a table with a mapped file: edits, and the end of the builder's scan. -/
inductive MappedAction where
  | insert (pos : Nat) (text : Bytes)
  | remove (pos length : Nat)
  | publish

/-- The builder scans the whole original buffer, which no edit changes. -/
def MappedAction.step (file : Bytes) (editing : Editing) : MappedAction → Editing
  | insert pos text =>
    { table := editing.table.insert pos text, text := edit editing.text (.insert pos text) }
  | remove pos length =>
    { table := editing.table.remove pos length, text := edit editing.text (.remove pos length) }
  | publish =>
    { editing with
      table := editing.table.setLineIndex (lineStarts newline file) (countNewlines file) }

def Editing.mapped (file : Bytes) : Editing := { table := .setMappedFile file, text := file }

def mappedRun (file : Bytes) (actions : List MappedAction) : Editing :=
  actions.foldl (MappedAction.step file) (.mapped file)

/-- The index and the count are those of the text once they are ready; before that the pieces tell
its lines. -/
structure TellsLines (editing : Editing) : Prop where
  ready : editing.table.lineIndexReady = true →
    editing.table.lineIndex = lineStarts newline editing.text ∧
      editing.table.totalNewlines = editing.text.count newline
  pieces : editing.table.lineIndexReady = false →
    (∀ pos, editing.table.lineForOffset pos = (editing.text.take pos).count newline) ∧
      ∀ line < 2 ^ 31, editing.table.lineStart (line : Nat) =
        (lineStarts newline editing.text)[line]?.getD editing.text.length

/-- An edit whose positions, lines and pieces can be counted. -/
def MappedAction.Countable (editing : Editing) : MappedAction → Prop
  | insert pos text => PieceTable.Countable editing (.insert pos text)
  | remove pos length => PieceTable.Countable editing (.remove pos length)
  | publish => True

structure MappedCountable (file : Bytes) (actions : List MappedAction) : Prop where
  size : file.length < 2 ^ 64
  edits : ∀ before action after, actions = before ++ action :: after →
    action.Countable (mappedRun file before)

/-- The file has no newline, and neither has the text whenever the index is published. -/
structure Lineless (file : Bytes) (actions : List MappedAction) : Prop where
  plain : newline ∉ file
  published : ∀ before after, actions = before ++ .publish :: after →
    newline ∉ (mappedRun file before).text

namespace SwPieceTable

variable {table : SwPieceTable} {text file : Bytes}

theorem Holds.tellsLines (holds : table.Holds text) : TellsLines { table, text } where
  ready ready := ⟨holds.lineIndex ready, holds.totalNewlines⟩
  pieces _ := ⟨holds.lineForOffset, fun _ counted => holds.lineStart counted⟩

theorem holds_setMappedFile (size : file.length < 2 ^ 64) (plain : newline ∉ file) :
    (setMappedFile file).Holds file := by
  have absent : file.count newline = 0 := count_eq_zero.mpr plain
  have data : (setMappedFile file).pieceData
      { buffer := .original, start := 0, length := file.length, newlineCount := 0 } = file :=
    List.take_length
  have pieces : (setMappedFile file).pieces = if file = [] then [] else
      [{ buffer := .original, start := 0, length := file.length, newlineCount := 0 }] := rfl
  refine ⟨fun piece member => ?_, ?_, rfl, ?_, fun ready => (by cases ready), ?_, by omega, size⟩
  · rw [pieces] at member
    split at member
    · cases member
    · rename_i filled
      cases mem_singleton.mp member
      refine ⟨length_pos_iff.mpr filled, ?_, ?_⟩
      · rw [Nat.zero_add]
        exact le_rfl
      · rw [data, absent]
        rfl
  · rw [pieces]
    split
    · rename_i empty
      rw [empty, contents_nil]
    · rw [contents_cons, data, contents_nil, append_nil]
  · rw [absent]
    rfl
  · rw [pieces]
    split
    · exact Nat.two_pow_pos 31
    · exact Nat.one_lt_two_pow (by decide)

/-- An index without lines fits a text without newlines. -/
theorem Holds.setLineIndex (holds : table.Holds text) (plain : newline ∉ text) :
    (table.setLineIndex [0] 0).Holds text := by
  have absent : text.count newline = 0 := count_eq_zero.mpr plain
  have starts : lineStarts newline text = [0] := by
    have size := @length_lineStarts _ _ newline text
    rw [absent] at size
    rw [lineStarts, List.cons.injEq, ← length_eq_zero_iff]
    rw [lineStarts, length_cons] at size
    exact ⟨rfl, by omega⟩
  have same : (table.setLineIndex [0] 0).pieces = table.pieces := by
    rw [SwPieceTable.setLineIndex]
    dsimp only
    split
    · rename_i piece only
      have member : piece ∈ table.pieces := only ▸ mem_singleton_self piece
      have counted := (holds.sound piece member).newlineCount
      have contents := holds.contents
      rw [only, contents_cons, contents_nil, append_nil] at contents
      rw [contents, absent] at counted
      rw [only]
      split
      · rw [← Int.natCast_zero, ← counted]
      · rfl
    · rfl
  refine ⟨?_, ?_, holds.totalLength, ?_, fun _ => starts.symm, ?_, holds.lines, holds.size⟩
  · rw [same]
    exact sound_congr holds.sound rfl rfl
  · rw [same]
    exact contents_congr holds.contents rfl rfl
  · rw [absent]
    rfl
  · rw [same]
    exact holds.few

end SwPieceTable

variable {file : Bytes} {actions : List MappedAction}

theorem scan_of_plain (plain : newline ∉ file) :
    lineStarts newline file = [0] ∧ countNewlines file = 0 := by
  have absent : file.count newline = 0 := count_eq_zero.mpr plain
  have size := @length_lineStartsFrom _ _ newline 0 file
  rw [absent, length_eq_zero_iff] at size
  rw [lineStarts, size, countNewlines, absent]
  exact ⟨rfl, rfl⟩

theorem mappedRun_concat (before : List MappedAction) (action : MappedAction) :
    mappedRun file (before ++ [action]) = action.step file (mappedRun file before) := by
  rw [mappedRun, foldl_append]
  rfl

theorem MappedCountable.before {after : List MappedAction}
    (countable : MappedCountable file (actions ++ after)) : MappedCountable file actions :=
  ⟨countable.size, fun before action rest same =>
    countable.edits before action (rest ++ after) (by rw [same, append_assoc]; rfl)⟩

theorem Lineless.before {after : List MappedAction} (lineless : Lineless file (actions ++ after)) :
    Lineless file actions :=
  ⟨lineless.plain, fun before rest same =>
    lineless.published before (rest ++ after) (by rw [same, append_assoc]; rfl)⟩

theorem holds_mappedRun (countable : MappedCountable file actions)
    (lineless : Lineless file actions) : (mappedRun file actions).Holds := by
  induction actions using List.reverseRecOn with
  | nil => exact SwPieceTable.holds_setMappedFile countable.size lineless.plain
  | append_singleton before action ih =>
    have holds := ih countable.before lineless.before
    have counted := countable.edits before action [] rfl
    rw [mappedRun_concat]
    cases action with
    | insert pos text => exact holds_step holds counted
    | remove pos length => exact holds_step holds counted
    | publish =>
      obtain ⟨starts, count⟩ := scan_of_plain lineless.plain
      rw [MappedAction.step, starts, count]
      exact SwPieceTable.Holds.setLineIndex holds (lineless.published before [] rfl)

theorem plain_of_tellsLines (tells : TellsLines (.mapped file)) : newline ∉ file := by
  have lines := (tells.pieces rfl).1 file.length
  rw [Editing.mapped, List.take_length] at lines
  refine count_eq_zero.mp (Int.ofNat_inj.mp (lines.symm.trans ?_))
  change SwPieceTable.lineForOffsetFromPieces _ _ = 0
  rw [SwPieceTable.lineForOffsetFromPieces, SwPieceTable.setMappedFile]
  dsimp only
  split
  · rfl
  · rw [scanned_small (Nat.one_lt_two_pow (by decide)),
      SwPieceTable.lineForOffsetFromPieces.go, if_pos]
    · rfl
    · change 0 + file.length ≤ min file.length file.length
      omega

/-- In every state of a run the lines are those of the text exactly when neither the file nor the
text at the end of a scan has a newline. -/
theorem mappedFile_lines_iff (file : Bytes) (actions : List MappedAction)
    (countable : MappedCountable file actions) :
    (∀ before after, actions = before ++ after → TellsLines (mappedRun file before)) ↔
      Lineless file actions := by
  constructor
  · intro tells
    refine ⟨plain_of_tellsLines (tells [] actions rfl), fun before after same => ?_⟩
    have plain := plain_of_tellsLines (tells [] actions rfl)
    have published := tells (before ++ [.publish]) after (by rw [same, append_assoc]; rfl)
    rw [mappedRun_concat, MappedAction.step, (scan_of_plain plain).1, (scan_of_plain plain).2]
      at published
    exact count_eq_zero.mp (Int.ofNat_inj.mp (published.ready rfl).2.symm)
  · intro lineless before after same
    subst same
    exact (holds_mappedRun countable.before lineless.before).tellsLines

theorem mappedFile_lines_of_edits :
    (∀ before after, [MappedAction.insert 1 [98], .publish] = before ++ after →
        TellsLines (mappedRun [97] before)) ↔
      Lineless [97] [.insert 1 [98], .publish] := by
  refine mappedFile_lines_iff _ _ ⟨by decide, fun before action after same => ?_⟩
  rcases before with _ | ⟨first, _ | ⟨second, rest⟩⟩
  · cases same
    exact ⟨fun _ _ never => (by cases never), by decide +kernel, by decide +kernel,
      by decide +kernel⟩
  · cases same
    exact trivial
  · simp at same

/-- Of a file with one newline the position behind it is said to be in the first line. -/
theorem mappedFile_misses_line :
    (SwPieceTable.setMappedFile [97, newline]).lineForOffset 2 = 0 ∧
      ¬ TellsLines (mappedRun [97, newline] []) := by
  refine ⟨by decide, fun tells => plain_of_tellsLines tells ?_⟩
  decide

end SwStack.PieceTable
