import SwStack.PieceTable.Table

/-! The text that pieces stand for, what the queries read of it, and how it splits at a position. -/
open List

namespace SwStack.PieceTable

open SwStack.Lib SwStack.Types

theorem toInt_small {value : Nat} (small : value < 2 ^ 31) : toInt value = value := by
  have bound : maxInt = 2147483647 := rfl
  exact toInt_of_le (by omega)

theorem scanned_small (small : items.length < 2 ^ 31) : scanned items = items := if_pos small

theorem addInt_small (low : 0 ≤ left + right) (high : left + right < 2 ^ 31) :
    addInt left right = left + right := by
  unfold addInt
  rw [Int.bmod_eq_of_le] <;> omega

theorem countNewlines_small (small : data.count newline < 2 ^ 31) :
    countNewlines data = data.count newline := toInt_small small

namespace SwPieceTable

variable {table : SwPieceTable}

/-- A piece that is not empty, lies in its buffer and knows its newlines. -/
structure Sound (table : SwPieceTable) (piece : Piece) : Prop where
  positive : 0 < piece.length
  inside : piece.start + piece.length ≤ (table.bufferPtr piece.buffer).length
  newlineCount : piece.newlineCount = (table.pieceData piece).count newline

def contents (table : SwPieceTable) (pieces : List Piece) : Bytes :=
  pieces.flatMap table.pieceData

@[simp] theorem contents_nil : table.contents [] = [] := rfl

@[simp] theorem contents_cons (piece : Piece) (pieces : List Piece) :
    table.contents (piece :: pieces) = table.pieceData piece ++ table.contents pieces :=
  flatMap_cons

@[simp] theorem contents_append (left right : List Piece) :
    table.contents (left ++ right) = table.contents left ++ table.contents right :=
  flatMap_append

theorem Sound.length {piece : Piece} (sound : table.Sound piece) :
    (table.pieceData piece).length = piece.length := by
  have inside := sound.inside
  unfold pieceData
  rw [length_take, length_drop]
  omega

theorem pieceData_recount (piece : Piece) (count : Int) :
    table.pieceData { piece with newlineCount := count } = table.pieceData piece := rfl

theorem sound_recount (piece : Piece) (positive : 0 < piece.length)
    (inside : piece.start + piece.length ≤ (table.bufferPtr piece.buffer).length)
    (small : (table.pieceData piece).count newline < 2 ^ 31) :
    table.Sound { piece with newlineCount := countNewlines (table.pieceData piece) } := by
  refine ⟨positive, inside, ?_⟩
  dsimp only
  rw [pieceData_recount piece (countNewlines (table.pieceData piece)), countNewlines_small small]

variable {other : SwPieceTable}

theorem pieceData_congr
    (original : other.originalOwned = table.originalOwned) (add : other.add = table.add) :
    other.pieceData = table.pieceData := by
  funext piece
  unfold pieceData bufferPtr
  rw [original, add]

variable {pieces : List Piece}

theorem contents_congr (contents : table.contents pieces = text)
    (original : other.originalOwned = table.originalOwned) (add : other.add = table.add) :
    other.contents pieces = text := by
  unfold SwPieceTable.contents at contents ⊢
  rw [pieceData_congr original add, contents]

theorem sound_congr (sound : ∀ piece ∈ pieces, table.Sound piece)
    (original : other.originalOwned = table.originalOwned) (add : other.add = table.add) :
    ∀ piece ∈ pieces, other.Sound piece := by
  intro piece member
  obtain ⟨positive, inside, newlineCount⟩ := sound piece member
  refine ⟨positive, ?_, ?_⟩
  · unfold bufferPtr at inside ⊢
    rw [original, add]
    exact inside
  · rw [pieceData_congr original add]
    exact newlineCount

theorem splitPieces_congr {other : SwPieceTable}
    (original : other.originalOwned = table.originalOwned) (add : other.add = table.add)
    (pos : Nat) (pieces : List Piece) (cumulative : Nat) :
    other.splitPieces pos pieces cumulative = table.splitPieces pos pieces cumulative := by
  induction pieces generalizing cumulative with
  | nil => rfl
  | cons piece rest ih => rw [splitPieces, splitPieces, ih, pieceData_congr original add]

theorem bufferChar_piece (inside : offset < piece.length) :
    table.bufferChar piece.buffer (piece.start + offset) = (table.pieceData piece).getD offset 0 := by
  unfold bufferChar pieceData
  rw [getD_eq_getElem?_getD, getD_eq_getElem?_getD, getElem?_take, if_pos inside,
    getElem?_drop]

theorem charAt_go (sound : ∀ piece ∈ pieces, table.Sound piece) (from' : cumulative ≤ pos) :
    charAt.go table pos pieces cumulative =
      (table.contents pieces).getD (pos - cumulative) 0 := by
  induction pieces generalizing cumulative with
  | nil => rfl
  | cons piece rest ih =>
    obtain ⟨first, later⟩ := forall_mem_cons.mp sound
    rw [charAt.go, contents_cons]
    have length := first.length
    split
    · rename_i inside
      rw [bufferChar_piece (by omega), getD_append _ _ _ _ (by omega)]
    · rename_i outside
      rw [ih later (by omega), getD_append_right _ _ _ _ (by omega), length, Nat.sub_sub]

theorem skipPieces_spec {pos : Nat} {pieces : List Piece} {cumulative : Nat}
    (sound : ∀ piece ∈ pieces, table.Sound piece) (from' : cumulative ≤ pos) :
    (skipPieces pos pieces cumulative).2 ≤ pos ∧
      (∀ piece ∈ (skipPieces pos pieces cumulative).1, table.Sound piece) ∧
      (∀ piece ∈ (skipPieces pos pieces cumulative).1.head?,
        pos - (skipPieces pos pieces cumulative).2 ≤ piece.length) ∧
      (table.contents pieces).drop (pos - cumulative) =
        (table.contents (skipPieces pos pieces cumulative).1).drop
          (pos - (skipPieces pos pieces cumulative).2) := by
  induction pieces generalizing cumulative with
  | nil => exact ⟨from', by simp [skipPieces], by simp [skipPieces], by simp [skipPieces]⟩
  | cons piece rest ih =>
    obtain ⟨first, later⟩ := forall_mem_cons.mp sound
    have length := first.length
    rw [skipPieces]
    split
    · rename_i before
      obtain ⟨bound, sounds, head, same⟩ := ih later before
      refine ⟨bound, sounds, head, ?_⟩
      rw [← same, contents_cons, drop_append, drop_eq_nil_of_le (by omega), length,
        Nat.sub_sub, nil_append]
    · rename_i holds
      refine ⟨from', sound, ?_, rfl⟩
      simp only [head?_cons, Option.mem_def, Option.some.injEq, forall_eq']
      omega

theorem copyPieces_spec (sound : ∀ piece ∈ pieces, table.Sound piece)
    (head : ∀ piece ∈ pieces.head?, localOffset ≤ piece.length) :
    table.copyPieces pieces localOffset remaining =
      ((table.contents pieces).drop localOffset).take remaining := by
  induction pieces generalizing localOffset remaining with
  | nil => simp [copyPieces]
  | cons piece rest ih =>
    obtain ⟨first, later⟩ := forall_mem_cons.mp sound
    have length := first.length
    have within : localOffset ≤ piece.length := head piece rfl
    rw [copyPieces]
    split
    · rename_i zero
      rw [zero, take_zero]
    · dsimp only
      rw [ih later (fun _ _ => Nat.zero_le _), contents_cons, drop_append_of_le_length (by omega),
        take_append, length_drop, length, drop_zero]
      have front : ((table.bufferPtr piece.buffer).drop (piece.start + localOffset)).take
          (min (piece.length - localOffset) remaining) =
            ((table.pieceData piece).drop localOffset).take remaining := by
        unfold pieceData
        rw [drop_take, drop_drop, take_take, min_comm]
      rw [front]
      congr 2
      omega

theorem equals_go (sound : ∀ piece ∈ pieces, table.Sound piece) :
    equals.go table text pieces textPos =
      decide ((text.drop textPos).take (table.contents pieces).length = table.contents pieces) := by
  induction pieces generalizing textPos with
  | nil => simp [equals.go]
  | cons piece rest ih =>
    obtain ⟨first, later⟩ := forall_mem_cons.mp sound
    have length := first.length
    rw [equals.go, ih later, contents_cons, length_append, length, take_add,
      drop_drop, Bool.eq_iff_iff]
    simp only [Bool.and_eq_true, decide_eq_true_eq]
    constructor
    · rintro ⟨front, back⟩
      rw [← front, back]
    · intro whole
      have size : ((text.drop textPos).take piece.length).length = (table.pieceData piece).length := by
        have sizes := congrArg List.length whole
        rw [length_append, length_append, length_take, length_take,
          length_drop, length_drop, length] at sizes
        rw [length_take, length_drop, length]
        omega
      obtain ⟨front, back⟩ := append_inj whole size
      exact ⟨front.symm, back⟩

/-- Splitting keeps the text and the pieces sound, and separates the text at the position. -/
theorem splitPieces_spec {pos : Nat} {pieces : List Piece} {cumulative : Nat}
    (sound : ∀ piece ∈ pieces, table.Sound piece)
    (few : (table.contents pieces).count newline < 2 ^ 31) (from' : cumulative ≤ pos)
    (inside : pos ≤ cumulative + (table.contents pieces).length) :
    (∀ piece ∈ (table.splitPieces pos pieces cumulative).1, table.Sound piece) ∧
      table.contents ((table.splitPieces pos pieces cumulative).1.take
        (table.splitPieces pos pieces cumulative).2) =
          (table.contents pieces).take (pos - cumulative) ∧
      table.contents ((table.splitPieces pos pieces cumulative).1.drop
        (table.splitPieces pos pieces cumulative).2) =
          (table.contents pieces).drop (pos - cumulative) ∧
      (table.splitPieces pos pieces cumulative).1.length ≤ pieces.length + 1 := by
  induction pieces generalizing cumulative with
  | nil => exact ⟨by simp [splitPieces], by simp [splitPieces], by simp [splitPieces], by
      simp [splitPieces]⟩
  | cons piece rest ih =>
    obtain ⟨first, later⟩ := forall_mem_cons.mp sound
    have length := first.length
    rw [contents_cons, count_append] at few
    rw [contents_cons, length_append] at inside
    rw [splitPieces]
    split
    · rename_i same
      subst same
      refine ⟨sound, ?_, ?_, Nat.le_succ _⟩
      · rw [Nat.sub_self, take_zero, take_zero, contents_nil]
      · rw [Nat.sub_self, drop_zero, drop_zero]
    rename_i differ
    split
    · rename_i within
      dsimp only
      have firstInside := first.inside
      have front : table.pieceData { piece with length := pos - cumulative } =
          (table.pieceData piece).take (pos - cumulative) := by
        unfold pieceData
        rw [take_take, min_eq_left (by omega)]
      have back : table.pieceData { piece with
          start := piece.start + (pos - cumulative), length := piece.length - (pos - cumulative) } =
          (table.pieceData piece).drop (pos - cumulative) := by
        unfold pieceData
        rw [drop_take, drop_drop]
      have counts : (table.pieceData piece).count newline =
          ((table.pieceData piece).take (pos - cumulative)).count newline +
            ((table.pieceData piece).drop (pos - cumulative)).count newline := by
        rw [← count_append, take_append_drop]
      rw [← front, ← back] at counts
      refine ⟨?_, ?_, ?_, ?_⟩
      · refine forall_mem_cons.mpr
          ⟨sound_recount { piece with length := pos - cumulative } ?_ ?_ (by omega),
            forall_mem_cons.mpr ⟨sound_recount { piece with
              start := piece.start + (pos - cumulative)
              length := piece.length - (pos - cumulative) } ?_ ?_ (by omega), later⟩⟩
        · exact Nat.sub_pos_of_lt (lt_of_le_of_ne from' differ)
        · exact le_trans (by dsimp only; omega) firstInside
        · exact Nat.sub_pos_of_lt (by omega)
        · exact le_trans (by dsimp only; omega) firstInside
      · rw [take_succ_cons, take_zero, contents_cons, contents_nil, append_nil,
          contents_cons, take_append_of_le_length (by omega)]
        exact (pieceData_recount { piece with length := pos - cumulative } _).trans front
      · rw [drop_succ_cons, drop_zero, contents_cons, contents_cons,
          drop_append_of_le_length (by omega)]
        exact congrArg (· ++ table.contents rest) ((pieceData_recount { piece with
          start := piece.start + (pos - cumulative)
          length := piece.length - (pos - cumulative) } _).trans back)
      · rw [length_cons, length_cons, length_cons]
    · rename_i beyond
      obtain ⟨sounds, front, back, size⟩ := ih later (by omega)
        (show cumulative + piece.length ≤ pos by omega) (by omega)
      dsimp only
      refine ⟨forall_mem_cons.mpr ⟨first, sounds⟩, ?_, ?_, ?_⟩
      · have whole : (table.pieceData piece).take (pos - cumulative) = table.pieceData piece :=
          take_of_length_le (by omega)
        rw [take_succ_cons, contents_cons, front, contents_cons, take_append, length,
          whole, Nat.sub_sub]
      · have empty : (table.pieceData piece).drop (pos - cumulative) = [] :=
          drop_eq_nil_of_le (by omega)
        rw [drop_succ_cons, back, contents_cons, drop_append, length, empty, Nat.sub_sub,
          nil_append]
      · rw [length_cons, length_cons]
        omega

theorem splitPieces_index (pos : Nat) (pieces : List Piece) (cumulative : Nat) :
    (table.splitPieces pos pieces cumulative).2 ≤
      (table.splitPieces pos pieces cumulative).1.length := by
  induction pieces generalizing cumulative with
  | nil => exact le_rfl
  | cons piece rest ih =>
    rw [splitPieces]
    split
    · exact Nat.zero_le _
    split
    · exact Nat.succ_le_succ (Nat.zero_le _)
    · exact Nat.succ_le_succ (ih _)

theorem splitPieces_append {pos : Nat} {front back : List Piece} {cumulative : Nat}
    (sound : ∀ piece ∈ front, table.Sound piece)
    (before : cumulative + (table.contents front).length ≤ pos) :
    table.splitPieces pos (front ++ back) cumulative =
      (front ++ (table.splitPieces pos back (cumulative + (table.contents front).length)).1,
        front.length + (table.splitPieces pos back (cumulative + (table.contents front).length)).2) := by
  induction front generalizing cumulative with
  | nil => simp
  | cons piece front ih =>
    obtain ⟨first, later⟩ := forall_mem_cons.mp sound
    have positive := first.positive
    rw [contents_cons, length_append, first.length] at before ⊢
    rw [cons_append, splitPieces, if_neg (by omega), if_neg (by omega),
      ih later (by omega), Nat.add_assoc, length_cons, Nat.add_right_comm]
    rfl

theorem foldl_newlineCount {total : Int}
    (sound : ∀ piece ∈ pieces, table.Sound piece) (low : 0 ≤ total)
    (few : total + (table.contents pieces).count newline < 2 ^ 31) :
    pieces.foldl (fun total piece => addInt total piece.newlineCount) total =
      total + (table.contents pieces).count newline := by
  induction pieces generalizing total with
  | nil => simp
  | cons piece rest ih =>
    obtain ⟨first, later⟩ := forall_mem_cons.mp sound
    have count := first.newlineCount
    rw [contents_cons, count_append] at few ⊢
    push_cast at few ⊢
    rw [foldl_cons, addInt_small (by omega) (by omega), ih later (by omega) (by omega), count,
      Int.add_assoc]

theorem scanLines_eq (sound : ∀ piece ∈ pieces, table.Sound piece) :
    table.scanLines pieces cumulative =
      lineStartsFrom newline cumulative (table.contents pieces) := by
  induction pieces generalizing cumulative with
  | nil => rfl
  | cons piece rest ih =>
    obtain ⟨first, later⟩ := forall_mem_cons.mp sound
    rw [scanLines, ih later, contents_cons, lineStartsFrom_append, first.length]

end SwPieceTable

end SwStack.PieceTable

/-! The line index: the search in it, and its updates after an edit. Both cut it at the edit: the
entries before stay, those after move. -/
namespace SwStack.PieceTable

open SwStack.Lib SwStack.Types

namespace SwPieceTable

variable {table : SwPieceTable}

variable {left right : List Nat}

/-- The search stops at the last of the entries that are not past the position. -/
theorem searchLine_spec {pos : Nat} {low high result : Int}
    (before : ∀ start ∈ left, start ≤ pos) (after : ∀ start ∈ right, pos < start)
    (lowBound : 0 ≤ low ∧ low ≤ left.length)
    (highBound : left.length ≤ high + 1 ∧ high < (left ++ right).length)
    (last : (low = 0 ∧ left ≠ []) ∨ result = low - 1) :
    searchLine (left ++ right) pos low high result = left.length - 1 := by
  induction low, high, result using searchLine.induct (left ++ right) pos with
  | case1 low high result more middle found ih =>
    rw [searchLine, if_pos more, if_pos found]
    refine ih ⟨by omega, ?_⟩ highBound (Or.inr (by omega))
    by_contra past
    have outside : left.length ≤ middle.toNat := by omega
    have inside : middle.toNat - left.length < right.length := by
      have size := highBound.2
      rw [length_append] at size
      omega
    rw [getD_append_right _ _ _ _ outside, getD_eq_getElem _ _ inside] at found
    exact absurd (after _ (getElem_mem inside)) (not_lt.mpr found)
  | case2 low high result more middle past ih =>
    rw [searchLine, if_pos more, if_neg past]
    refine ih lowBound ⟨?_, by omega⟩ last
    by_contra short
    have inside : middle.toNat < left.length := by omega
    rw [getD_append _ _ _ _ inside, getD_eq_getElem _ _ inside] at past
    exact past (before _ (getElem_mem inside))
  | case3 low high result done =>
    rw [searchLine, if_neg done]
    cases last with
    | inl first =>
      have nonempty := length_pos_iff.mpr first.2
      omega
    | inr last => omega

theorem lineForOffsetFromIndex_spec {pos : Nat}
    (index : table.lineIndex = left ++ right) (few : (left ++ right).length < 2 ^ 31)
    (nonempty : left ≠ []) (before : ∀ start ∈ left, start ≤ min pos table.totalLength)
    (after : ∀ start ∈ right, min pos table.totalLength < start) :
    table.lineForOffsetFromIndex pos = left.length - 1 := by
  unfold lineForOffsetFromIndex
  rw [index, toInt_small few]
  refine searchLine_spec before after ⟨le_rfl, by omega⟩ ⟨?_, by omega⟩ (Or.inl ⟨rfl, nonempty⟩)
  rw [length_append]
  omega

theorem shiftFrom_spec (few : (left ++ right).length < 2 ^ 31) (move : Nat → Nat) :
    shiftFrom (left ++ right) left.length move = left ++ right.map move := by
  unfold shiftFrom
  rw [toInt_small few, mapIdx_append]
  congr 1
  · refine ext_getElem? fun index => ?_
    rw [getElem?_mapIdx]
    cases found : left[index]? with
    | none => rfl
    | some start =>
      have inside := (List.getElem?_eq_some_iff.mp found).1
      rw [Option.map_some, if_neg (by omega)]
  · refine ext_getElem? fun index => ?_
    rw [getElem?_mapIdx, getElem?_map]
    cases found : right[index]? with
    | none => rfl
    | some start =>
      have inside := (List.getElem?_eq_some_iff.mp found).1
      rw [Option.map_some, Option.map_some, if_pos]
      rw [length_append]
      omega

variable {removeEnd : Nat}

theorem findRange_append (left right : List Nat) (index : Nat) (found : Option (Nat × Nat)) :
    findRange pos removeEnd (left ++ right) index found =
      findRange pos removeEnd right (index + left.length)
        (findRange pos removeEnd left index found) := by
  induction left generalizing index found with
  | nil => rfl
  | cons offset left ih =>
    rw [cons_append, findRange, ih, findRange, length_cons, Nat.add_right_comm,
      Nat.add_assoc]

theorem findRange_outside (outside : ∀ offset ∈ entries, ¬ (pos < offset ∧ offset ≤ removeEnd)) :
    findRange pos removeEnd entries index found = found := by
  induction entries generalizing index with
  | nil => rfl
  | cons offset entries ih =>
    obtain ⟨first, later⟩ := forall_mem_cons.mp outside
    rw [findRange, if_neg first, ih later]

theorem findRange_inside (inside : ∀ other ∈ offset :: entries, pos < other ∧ other ≤ removeEnd) :
    findRange pos removeEnd (offset :: entries) index found =
      some ((found.map Prod.fst).getD index, index + entries.length) := by
  induction entries generalizing offset index found with
  | nil =>
    rw [findRange, if_pos (inside offset mem_cons_self)]
    rfl
  | cons next entries ih =>
    obtain ⟨first, later⟩ := forall_mem_cons.mp inside
    rw [findRange, if_pos first, ih later, length_cons, Nat.add_assoc, Nat.add_comm 1]
    rfl

theorem lineStarts_around (left right : Bytes) :
    (∀ start ∈ lineStarts newline left, start ≤ left.length) ∧
      ∀ start ∈ lineStartsFrom newline left.length right, left.length < start :=
  ⟨fun _ => mem_lineStarts, fun _ member => (mem_lineStartsFrom member).1⟩

theorem lineStarts_ne_nil (text : Bytes) : lineStarts newline text ≠ [] := cons_ne_nil _ _

theorem lineForOffsetFromIndex_starts {left right : Bytes} {shift : Nat}
    (index : table.lineIndex =
      lineStarts newline left ++ lineStartsFrom newline (left.length + shift) right)
    (few : left.count newline + right.count newline + 1 < 2 ^ 31)
    (total : left.length ≤ table.totalLength) :
    table.lineForOffsetFromIndex left.length = left.count newline := by
  obtain ⟨before, _⟩ := lineStarts_around left right
  have size : (lineStarts newline left ++
      lineStartsFrom newline (left.length + shift) right).length < 2 ^ 31 := by
    rw [length_append, length_lineStarts, length_lineStartsFrom]
    omega
  rw [lineForOffsetFromIndex_spec index size (lineStarts_ne_nil left), length_lineStarts]
  · omega
  · rw [min_eq_left total]
    exact before
  · rw [min_eq_left total]
    intro start member
    have bounds := mem_lineStartsFrom member
    omega

theorem lineIndex_insert {left inserted right : Bytes} (ready : table.lineIndexReady = true)
    (index : table.lineIndex = lineStarts newline (left ++ right))
    (total : left.length ≤ table.totalLength)
    (added : table.add.drop (table.add.length - inserted.length) = inserted)
    (few : (left ++ inserted ++ right).count newline + 1 < 2 ^ 31) :
    (table.updateLineIndexAfterInsert left.length inserted.length
      (inserted.count newline)).lineIndex = lineStarts newline (left ++ inserted ++ right) := by
  rw [count_append, count_append] at few
  rw [lineStarts_append] at index
  have size : (lineStarts newline left ++ lineStartsFrom newline left.length right).length <
      2 ^ 31 := by
    rw [length_append, length_lineStarts, length_lineStartsFrom]
    omega
  have line := @lineForOffsetFromIndex_starts _ _ _ 0 index (by omega) total
  have next : (left.count newline : Int) + 1 = ((lineStarts newline left).length : Int) := by
    rw [length_lineStarts]
    rfl
  have moved : (lineStartsFrom newline left.length right).map (· + inserted.length) =
      lineStartsFrom newline (left.length + inserted.length) right :=
    (lineStartsFrom_add _ _ _).symm
  have target : lineStarts newline (left ++ inserted ++ right) =
      lineStarts newline left ++ lineStartsFrom newline left.length inserted ++
        lineStartsFrom newline (left.length + inserted.length) right := by
    rw [lineStarts_append, lineStarts_append, length_append]
  unfold updateLineIndexAfterInsert
  rw [if_neg (by simp [ready]), line]
  dsimp only
  rw [next]
  split
  · rename_i zero
    have absent : newline ∉ inserted := count_eq_zero.mp (by exact_mod_cast zero)
    dsimp only
    rw [index, shiftFrom_spec size, moved, target, lineStartsFrom_of_not_mem absent, append_nil]
  · dsimp only
    have fewNew : (lineStartsFrom newline left.length inserted).length < 2 ^ 31 := by
      rw [length_lineStartsFrom]
      omega
    rw [added, index, scanned_small size, scanned_small fewNew, Int.toNat_natCast,
      take_left, drop_left, moved, target]

theorem lineIndex_remove {left removed right : Bytes} (ready : table.lineIndexReady = true)
    (index : table.lineIndex = lineStarts newline (left ++ removed ++ right))
    (total : left.length ≤ table.totalLength)
    (few : (left ++ removed ++ right).count newline + 1 < 2 ^ 31) :
    (table.updateLineIndexAfterRemove left.length removed.length
      (removed.count newline)).lineIndex = lineStarts newline (left ++ right) := by
  rw [count_append, count_append] at few
  rw [lineStarts_append, lineStarts_append, length_append] at index
  have size : (lineStarts newline left ++ lineStartsFrom newline left.length removed ++
      lineStartsFrom newline (left.length + removed.length) right).length < 2 ^ 31 := by
    rw [length_append, length_append, length_lineStarts, length_lineStartsFrom,
      length_lineStartsFrom]
    omega
  have keptSize : (lineStarts newline left ++
      lineStartsFrom newline (left.length + removed.length) right).length < 2 ^ 31 := by
    rw [length_append, length_lineStarts, length_lineStartsFrom]
    omega
  have next : (left.count newline : Int) + 1 = ((lineStarts newline left).length : Int) := by
    rw [length_lineStarts]
    rfl
  have moved : (lineStartsFrom newline (left.length + removed.length) right).map
      (· - removed.length) = lineStartsFrom newline left.length right := by
    rw [lineStartsFrom_add, map_map]
    exact (map_congr_left (g := id) fun start _ => Nat.add_sub_cancel _ _).trans (map_id _)
  unfold updateLineIndexAfterRemove
  rw [if_neg (by simp [ready])]
  split
  · rename_i zero
    have absent : newline ∉ removed := count_eq_zero.mp (by exact_mod_cast zero)
    rw [lineStartsFrom_of_not_mem absent, append_nil] at index
    dsimp only
    rw [lineForOffsetFromIndex_starts index (by omega) total, next, index, shiftFrom_spec keptSize,
      moved, lineStarts_append]
  · rename_i breaks
    have found : findRange left.length (left.length + removed.length) (scanned table.lineIndex) 0
        none = some ((lineStarts newline left).length,
          (lineStarts newline left).length +
            ((lineStartsFrom newline left.length removed).length - 1)) := by
      rw [index, scanned_small size, findRange_append, findRange_append]
      have earlier : ∀ offset ∈ lineStarts newline left,
          ¬ (left.length < offset ∧ offset ≤ left.length + removed.length) := by
        intro offset member
        have bound := mem_lineStarts member
        omega
      have later : ∀ offset ∈ lineStartsFrom newline (left.length + removed.length) right,
          ¬ (left.length < offset ∧ offset ≤ left.length + removed.length) := by
        intro offset member
        have bounds := mem_lineStartsFrom member
        omega
      rw [findRange_outside later, findRange_outside earlier]
      cases entries : lineStartsFrom newline left.length removed with
      | nil =>
        refine absurd ?_ breaks
        rw [← length_lineStartsFrom left.length removed, entries]
        rfl
      | cons offset rest =>
        have inside : ∀ other ∈ offset :: rest,
            left.length < other ∧ other ≤ left.length + removed.length := by
          intro other member
          rw [← entries] at member
          exact mem_lineStartsFrom member
        rw [findRange_inside inside, Nat.zero_add, length_cons, Nat.add_sub_cancel]
        rfl
    have positive : 0 < (lineStartsFrom newline left.length removed).length := by
      rw [length_lineStartsFrom]
      omega
    have kept : table.lineIndex.take (lineStarts newline left).length ++
        table.lineIndex.drop ((lineStarts newline left).length +
          ((lineStartsFrom newline left.length removed).length - 1) + 1) =
        lineStarts newline left ++ lineStartsFrom newline (left.length + removed.length) right := by
      have split : (lineStarts newline left).length +
          ((lineStartsFrom newline left.length removed).length - 1) + 1 =
          (lineStarts newline left ++ lineStartsFrom newline left.length removed).length := by
        rw [length_append]
        omega
      rw [split, index, drop_left, append_assoc, take_left]
    rw [found]
    dsimp only
    rw [kept]
    have line := @lineForOffsetFromIndex_starts
      { table with
        lineIndex := lineStarts newline left ++
          lineStartsFrom newline (left.length + removed.length) right }
      left right removed.length rfl (by omega) total
    rw [line, next, shiftFrom_spec keptSize, moved, lineStarts_append]

theorem updateLineIndexAfterInsert_rest (pos insertedLen : Nat) (insertedNewlines : Int) :
    ∃ index, table.updateLineIndexAfterInsert pos insertedLen insertedNewlines =
      { table with lineIndex := index } := by
  unfold updateLineIndexAfterInsert
  split
  · exact ⟨table.lineIndex, rfl⟩
  dsimp only
  split
  · exact ⟨_, rfl⟩
  · exact ⟨_, rfl⟩

theorem updateLineIndexAfterRemove_rest (pos removedLen : Nat) (removedNewlines : Int) :
    ∃ index, table.updateLineIndexAfterRemove pos removedLen removedNewlines =
      { table with lineIndex := index } := by
  unfold updateLineIndexAfterRemove
  split
  · exact ⟨table.lineIndex, rfl⟩
  split
  · exact ⟨_, rfl⟩
  · exact ⟨_, rfl⟩

end SwPieceTable

end SwStack.PieceTable
