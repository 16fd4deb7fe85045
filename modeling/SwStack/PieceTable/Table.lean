import SwStack.Types.ByteArray
import SwStack.Lib.Lines

/-! A text in pieces of two buffers: the original text and what was added since. The numbers of
newlines, pieces and lines are `int`s there. -/
namespace SwStack.PieceTable

open SwStack.Lib SwStack.Types

def newline : UInt8 := 0x0a

/-- The sum of two `int`s. -/
def addInt (left right : Int) : Int := Int.bmod (left + right) (2 ^ 32)

inductive BufferType where
  | original
  | add
  deriving DecidableEq

structure Piece where
  buffer : BufferType
  start : Nat
  length : Nat
  newlineCount : Int
  deriving DecidableEq

structure SwPieceTable where
  originalOwned : Bytes
  add : Bytes
  pieces : List Piece
  totalLength : Nat
  totalNewlines : Int
  lineIndex : List Nat
  lineIndexReady : Bool
  deriving DecidableEq

/-- A table as it is constructed. -/
def SwPieceTable.new : SwPieceTable where
  originalOwned := []
  add := []
  pieces := []
  totalLength := 0
  totalNewlines := 0
  lineIndex := []
  lineIndexReady := false

/-- What a loop with an `int` index under `size()` visits: everything, unless the cast changes the
size. -/
def scanned {α : Type} (items : List α) : List α :=
  if items.length < 2 ^ 31 then items else items.take (toInt items.length).toNat

def countNewlines (data : Bytes) : Int := toInt (data.count newline)

namespace SwPieceTable

variable (table : SwPieceTable)

def bufferPtr : BufferType → Bytes
  | .original => table.originalOwned
  | .add => table.add

/-- The bytes of a piece. -/
def pieceData (piece : Piece) : Bytes :=
  ((table.bufferPtr piece.buffer).drop piece.start).take piece.length

def bufferChar (buffer : BufferType) (offset : Nat) : UInt8 :=
  (table.bufferPtr buffer).getD offset 0

def charAt (pos : Nat) : UInt8 :=
  if table.totalLength ≤ pos then 0 else go (scanned table.pieces) 0
where
  go : List Piece → Nat → UInt8
    | [], _ => 0
    | piece :: rest, cumulative =>
      if pos < cumulative + piece.length then
        table.bufferChar piece.buffer (piece.start + (pos - cumulative))
      else go rest (cumulative + piece.length)

/-- The pieces from the one that holds a position, with what comes before them. -/
def skipPieces (pos : Nat) : List Piece → Nat → List Piece × Nat
  | [], cumulative => ([], cumulative)
  | piece :: rest, cumulative =>
    if cumulative + piece.length ≤ pos then skipPieces pos rest (cumulative + piece.length)
    else (piece :: rest, cumulative)

/-- Copies so many bytes from pieces, from an offset in the first of them. -/
def copyPieces : List Piece → (localOffset remaining : Nat) → Bytes
  | [], _, _ => []
  | piece :: rest, localOffset, remaining =>
    if remaining = 0 then []
    else
      let taken := min (piece.length - localOffset) remaining
      ((table.bufferPtr piece.buffer).drop (piece.start + localOffset)).take taken ++
        copyPieces rest 0 (remaining - taken)

def substr (pos length : Nat) : Bytes :=
  if length = 0 ∨ table.totalLength ≤ pos then []
  else
    let actualEnd := min ((pos + length) % 2 ^ 64) table.totalLength
    let (pieces, cumulative) := skipPieces pos (scanned table.pieces) 0
    table.copyPieces pieces (pos - cumulative) (actualEnd - pos)

def toPlainText : Bytes :=
  if table.totalLength = 0 then []
  else
    match table.pieces with
    | [piece] =>
      if piece.buffer = .original ∧ piece.start = 0 ∧
          piece.length = table.originalOwned.length then table.originalOwned
      else table.pieceData piece
    | pieces => (scanned pieces).flatMap table.pieceData

def equals (text : Bytes) : Bool :=
  text.length = table.totalLength && go (scanned table.pieces) 0
where
  go : List Piece → Nat → Bool
    | [], _ => true
    | piece :: rest, textPos =>
      table.pieceData piece = (text.drop textPos).take piece.length &&
        go rest (textPos + piece.length)

/-- The positions after the newlines of pieces. -/
def scanLines : List Piece → Nat → List Nat
  | [], _ => []
  | piece :: rest, cumulative =>
    lineStartsFrom newline cumulative (table.pieceData piece) ++
      scanLines rest (cumulative + piece.length)

def buildLineIndex : SwPieceTable :=
  let starts := table.scanLines (scanned table.pieces) 0
  { table with
    lineIndex := 0 :: starts
    totalNewlines := toInt starts.length
    lineIndexReady := true }

/-- The search for the last line that does not start after a position. -/
def searchLine (lineIndex : List Nat) (pos : Nat) (low high result : Int) : Int :=
  if low ≤ high then
    let middle := low + (high - low) / 2
    if lineIndex.getD middle.toNat 0 ≤ pos then searchLine lineIndex pos (middle + 1) high middle
    else searchLine lineIndex pos low (middle - 1) result
  else result
termination_by (high + 1 - low).toNat
decreasing_by
  · omega
  · omega

def lineForOffsetFromIndex (pos : Nat) : Int :=
  searchLine table.lineIndex (min pos table.totalLength) 0 (toInt table.lineIndex.length - 1) 0

/-- The entries from an index on are moved. -/
def shiftFrom (lineIndex : List Nat) (first : Int) (move : Nat → Nat) : List Nat :=
  lineIndex.mapIdx fun index offset =>
    if first ≤ index ∧ (index : Int) < toInt lineIndex.length then move offset else offset

def updateLineIndexAfterInsert (pos insertedLen : Nat) (insertedNewlines : Int) : SwPieceTable :=
  if !table.lineIndexReady then table
  else
    let lineIdx := table.lineForOffsetFromIndex pos
    if insertedNewlines = 0 then
      { table with
        lineIndex := shiftFrom table.lineIndex (lineIdx + 1) (· + insertedLen) }
    else
      let inserted := table.add.drop (table.add.length - insertedLen)
      let newEntries := lineStartsFrom newline pos inserted
      let insertAt := (lineIdx + 1).toNat
      { table with
        lineIndex := table.lineIndex.take insertAt ++ scanned newEntries ++
          ((scanned table.lineIndex).drop insertAt).map (· + insertedLen) }

/-- The first and the last entry of a range of offsets. -/
def findRange (pos removeEnd : Nat) :
    List Nat → Nat → Option (Nat × Nat) → Option (Nat × Nat)
  | [], _, found => found
  | offset :: rest, index, found =>
    findRange pos removeEnd rest (index + 1) <|
      if pos < offset ∧ offset ≤ removeEnd then some ((found.map Prod.fst).getD index, index)
      else found

def updateLineIndexAfterRemove (pos removedLen : Nat) (removedNewlines : Int) : SwPieceTable :=
  if !table.lineIndexReady then table
  else if removedNewlines = 0 then
    let lineIdx := table.lineForOffsetFromIndex pos
    { table with
      lineIndex := shiftFrom table.lineIndex (lineIdx + 1) (· - removedLen) }
  else
    let kept :=
      match findRange pos (pos + removedLen) (scanned table.lineIndex) 0 none with
      | none => table.lineIndex
      | some (first, last) => table.lineIndex.take first ++ table.lineIndex.drop (last + 1)
    let lineIdx := { table with lineIndex := kept }.lineForOffsetFromIndex pos
    { table with
      lineIndex := shiftFrom kept (lineIdx + 1) (· - removedLen) }

/-- The pieces with a boundary at a position, and the index of the piece that starts there. -/
def splitPieces (pos : Nat) : List Piece → Nat → List Piece × Nat
  | [], _ => ([], 0)
  | piece :: rest, cumulative =>
    if cumulative = pos then (piece :: rest, 0)
    else if pos < cumulative + piece.length then
      let localOffset := pos - cumulative
      let before := { piece with length := localOffset }
      let after :=
        { piece with
          start := piece.start + localOffset
          length := piece.length - localOffset }
      ({ before with newlineCount := countNewlines (table.pieceData before) } ::
        { after with newlineCount := countNewlines (table.pieceData after) } :: rest, 1)
    else
      let (pieces, index) := splitPieces pos rest (cumulative + piece.length)
      (piece :: pieces, index + 1)

def splitPieceAt (pos : Nat) : SwPieceTable × Nat :=
  let (pieces, index) := table.splitPieces pos (scanned table.pieces) 0
  ({ table with pieces := pieces ++ table.pieces.drop (scanned table.pieces).length }, index)

def setText (text : Bytes) : SwPieceTable :=
  buildLineIndex
    { originalOwned := text
      add := []
      pieces := if text = [] then [] else
        [{ buffer := .original, start := 0, length := text.length
           newlineCount := countNewlines text }]
      totalLength := text.length
      totalNewlines := if text = [] then 0 else countNewlines text
      lineIndex := []
      lineIndexReady := false }

/-- A piece is put at a position. -/
def placePiece (pos : Nat) (piece : Piece) : SwPieceTable :=
  if table.pieces = [] then { table with pieces := [piece] }
  else
    let (split, index) := table.splitPieceAt pos
    { split with pieces := split.pieces.take index ++ piece :: split.pieces.drop index }

def insert (pos : Nat) (text : Bytes) : SwPieceTable :=
  if text = [] then table
  else
    let clamped := min pos table.totalLength
    let newNewlines := countNewlines text
    let newPiece : Piece :=
      { buffer := .add, start := table.add.length, length := text.length
        newlineCount := newNewlines }
    let placed := { table with add := table.add ++ text }.placePiece clamped newPiece
    updateLineIndexAfterInsert
      { placed with
        totalLength := table.totalLength + text.length
        totalNewlines := addInt table.totalNewlines newNewlines }
      clamped text.length newNewlines

/-- The pieces between two positions are taken out; with it the newlines that they had. -/
def erasePieces (removeStart removeEnd : Nat) : SwPieceTable × Int :=
  let (first, startIdx) := table.splitPieceAt removeStart
  let (second, endIdx) := first.splitPieceAt removeEnd
  let removedNewlines :=
    ((second.pieces.take endIdx).drop startIdx).foldl
      (fun total piece => addInt total piece.newlineCount) 0
  ({ second with pieces := second.pieces.take startIdx ++ second.pieces.drop endIdx },
    removedNewlines)

def remove (pos length : Nat) : SwPieceTable :=
  if length = 0 ∨ table.totalLength = 0 then table
  else
    let removeStart := min pos table.totalLength
    let removeEnd := min ((pos + length) % 2 ^ 64) table.totalLength
    if removeEnd ≤ removeStart then table
    else
      let removeLen := removeEnd - removeStart
      let (erased, removedNewlines) := table.erasePieces removeStart removeEnd
      updateLineIndexAfterRemove
        { erased with
          totalLength := table.totalLength - removeLen
          totalNewlines := addInt table.totalNewlines (-removedNewlines) }
        removeStart removeLen removedNewlines

def lineCount : Int :=
  if table.lineIndexReady then toInt table.lineIndex.length else addInt table.totalNewlines 1

def lineForOffsetFromPieces (pos : Nat) : Int :=
  go (scanned table.pieces) 0 0
where
  go : List Piece → Nat → Int → Int
    | [], _, newlineCount => newlineCount
    | piece :: rest, cumulative, newlineCount =>
      if cumulative + piece.length ≤ min pos table.totalLength then
        go rest (cumulative + piece.length) (addInt newlineCount piece.newlineCount)
      else
        addInt newlineCount
          (countNewlines ((table.pieceData piece).take (min pos table.totalLength - cumulative)))

def lineForOffset (pos : Nat) : Int :=
  if table.lineIndexReady && !table.lineIndex.isEmpty then table.lineForOffsetFromIndex pos
  else table.lineForOffsetFromPieces pos

/-- The newline at which the count reaches a line, or the count at the end. -/
def scanPiece (lineIdx : Int) : Bytes → Nat → Int → Int × Option Nat
  | [], _, newlinesSeen => (newlinesSeen, none)
  | byte :: rest, position, newlinesSeen =>
    if byte = newline then
      let seen := addInt newlinesSeen 1
      if seen = lineIdx then (seen, some (position + 1)) else scanPiece lineIdx rest (position + 1) seen
    else scanPiece lineIdx rest (position + 1) newlinesSeen

def lineStartFromPieces (lineIdx : Int) : Nat :=
  if lineIdx ≤ 0 then 0 else go (scanned table.pieces) 0 0
where
  go : List Piece → Nat → Int → Nat
    | [], _, _ => table.totalLength
    | piece :: rest, cumulative, newlinesSeen =>
      if addInt newlinesSeen piece.newlineCount < lineIdx then
        go rest (cumulative + piece.length) (addInt newlinesSeen piece.newlineCount)
      else
        match scanPiece lineIdx (table.pieceData piece) cumulative newlinesSeen with
        | (_, some start) => start
        | (seen, none) => go rest (cumulative + piece.length) seen

def lineStart (lineIdx : Int) : Nat :=
  if lineIdx ≤ 0 then 0
  else if table.lineIndexReady then
    if lineIdx < toInt table.lineIndex.length then table.lineIndex.getD lineIdx.toNat 0
    else table.totalLength
  else table.lineStartFromPieces lineIdx

def lineLength (lineIdx : Int) : Nat :=
  let start := table.lineStart lineIdx
  let nextStart := table.lineStart (addInt lineIdx 1)
  if nextStart ≤ start then table.totalLength - start
  else
    let length := nextStart - start
    if 0 < length ∧ nextStart ≤ table.totalLength ∧ table.charAt (nextStart - 1) = newline then
      length - 1
    else length

def lineContent (lineIdx : Int) : Bytes :=
  let start := table.lineStart lineIdx
  let length := table.lineLength lineIdx
  if length = 0 ∧ table.totalLength ≤ start then [] else table.substr start length

end SwPieceTable

inductive Action where
  | setText (text : Bytes)
  | insert (pos : Nat) (text : Bytes)
  | remove (pos length : Nat)
  | buildLineIndex

def step (table : SwPieceTable) : Action → SwPieceTable
  | .setText text => .setText text
  | .insert pos text => table.insert pos text
  | .remove pos length => table.remove pos length
  | .buildLineIndex => table.buildLineIndex

/-- The edits of an ordinary string; a position past the end is the end. -/
def edit (text : Bytes) : Action → Bytes
  | .setText other => other
  | .insert pos inserted => text.take pos ++ inserted ++ text.drop pos
  | .remove pos length => text.take pos ++ text.drop (pos + length)
  | .buildLineIndex => text

end SwStack.PieceTable
