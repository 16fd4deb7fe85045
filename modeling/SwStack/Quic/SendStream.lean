import SwStack.Lib.RangeMap
import SwStack.Quic.Frame

/-! The send side of one stream: what is still to be put in a frame, and which of the
framed bytes were acknowledged. -/
namespace SwStack.Quic

open SwStack.Lib

/-- `nextOffset` is the wire offset of the byte at `bufferOffset`. `ackedRanges` holds the
acknowledged ranges above `contiguousAckedOffset`, each with an exclusive end. -/
structure SendStream where
  buffer : Bytes
  bufferOffset : Nat
  nextOffset : Nat
  finQueued : Bool
  finSent : Bool
  finAcked : Bool
  resetQueued : Bool
  resetAt : Bool
  resetAcked : Bool
  resetReliableSize : Nat
  peerCreditPending : Bool
  contiguousAckedOffset : Nat
  ackedRanges : RangeMap
  deriving DecidableEq

namespace SendStream

def empty : SendStream :=
  { buffer := [], bufferOffset := 0, nextOffset := 0, finQueued := false, finSent := false
    finAcked := false, resetQueued := false, resetAt := false, resetAcked := false
    resetReliableSize := 0, peerCreditPending := false, contiguousAckedOffset := 0
    ackedRanges := ∅ }

/-- The bytes not handed to a frame yet. -/
def remaining (stream : SendStream) : Nat := stream.buffer.length - stream.bufferOffset

/-- Drops the ranges that touch the acknowledged prefix, which they extend. -/
def collapse : List (Nat × Nat) → Nat → RangeMap → Nat × RangeMap
  | [], contiguous, ranges => (contiguous, ranges)
  | range :: rest, contiguous, ranges =>
    if contiguous < range.1 then (contiguous, ranges)
    else collapse rest (max contiguous range.2) (ranges.erase range.1)

def withRanges (stream : SendStream) (ranges : RangeMap) : SendStream :=
  { stream with
    contiguousAckedOffset := (collapse ranges.entries stream.contiguousAckedOffset ranges).1
    ackedRanges := (collapse ranges.entries stream.contiguousAckedOffset ranges).2 }

def acknowledgeRange (stream : SendStream) (offset length : Nat) : SendStream :=
  if length = 0 ∨ offset + length ≤ stream.contiguousAckedOffset then stream
  else stream.withRanges
    (RangeMap.add 0 stream.ackedRanges (max offset stream.contiguousAckedOffset) (offset + length))

def isRangeAcked (stream : SendStream) (offset length : Nat) : Bool :=
  if length = 0 ∨ offset + length ≤ stream.contiguousAckedOffset then true
  else match stream.ackedRanges.floor? (max offset stream.contiguousAckedOffset) with
    | some range => decide (offset + length ≤ range.2)
    | none => false

/-- The compaction `sendStreamData` makes before it appends. -/
def compact (stream : SendStream) : SendStream :=
  if 0 < stream.bufferOffset ∧ stream.buffer.length / 2 ≤ stream.bufferOffset then
    { stream with buffer := stream.buffer.drop stream.bufferOffset, bufferOffset := 0 }
  else stream

end SendStream
end SwStack.Quic
