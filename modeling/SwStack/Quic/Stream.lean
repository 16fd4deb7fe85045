import SwStack.Lib.SortedMap
import SwStack.Lib.Reader

/-! Reassembly of one stream's receive side. Fragments are kept apart and only the
uncovered parts of an arriving frame are stored. -/
namespace SwStack.Quic

open SwStack.Lib

def maxUInt64 : Nat := 2 ^ 64 - 1

/-- The largest `int`, the bound of a byte array slice. -/
def maxSlice : Nat := 2 ^ 31 - 1

structure Stream where
  readOffset : Nat
  finReceived : Bool
  finalOffset : Nat
  bufferedBytes : Nat
  maxBufferedBytes : Nat
  maxFragments : Nat
  fragments : SortedMap Nat Bytes
  deriving DecidableEq

def Stream.empty (maxBufferedBytes maxFragments : Nat) : Stream :=
  { readOffset := 0, finReceived := false, finalOffset := 0, bufferedBytes := 0
    maxBufferedBytes, maxFragments, fragments := ∅ }

/-- `mid`: `length` bytes from `position` on. -/
def slice (data : Bytes) (position length : Nat) : Bytes := (data.drop position).take length

/-- The uncovered parts of a fragment that lie before a retained one, and where the
part that is still uncovered starts. -/
def uncovered (fragmentOffset : Nat) (fragment : Bytes) :
    List (Nat × Bytes) → Nat → Except String (List (Nat × Bytes) × Nat)
  | [], cursor => .ok ([], cursor)
  | (existingStart, existing) :: rest, cursor =>
    let existingEnd := existingStart + existing.length
    let fragmentEnd := fragmentOffset + fragment.length
    if existingEnd ≤ fragmentOffset then uncovered fragmentOffset fragment rest cursor
    else if fragmentEnd ≤ existingStart then .ok ([], cursor)
    else
      let pending := if cursor < existingStart then
          [(cursor, slice fragment (cursor - fragmentOffset)
            (min existingStart fragmentEnd - cursor))]
        else []
      let overlapStart := max existingStart fragmentOffset
      let overlapEnd := min existingEnd fragmentEnd
      if overlapStart < overlapEnd ∧
          slice existing (overlapStart - existingStart) (overlapEnd - overlapStart) ≠
            slice fragment (overlapStart - fragmentOffset) (overlapEnd - overlapStart) then
        .error "QUIC stream received conflicting overlapping data"
      else
        match uncovered fragmentOffset fragment rest (max cursor existingEnd) with
        | .ok (additions, cursor) => .ok (pending ++ additions, cursor)
        | .error message => .error message

namespace Stream

/-- Why a final offset contradicts what was received. -/
def finalConflict (s : Stream) (endOffset : Nat) : Option String :=
  if s.finReceived ∧ s.finalOffset ≠ endOffset then
    some "QUIC stream received conflicting final offsets"
  else if endOffset < s.readOffset then
    some "QUIC stream final offset precedes consumed data"
  else if s.finReceived then none
  else match s.fragments.entries.getLast? with
    | some last =>
      if endOffset < last.1 + last.2.length then
        some "QUIC stream final offset precedes received data"
      else none
    | none => none

def finish (s : Stream) (fin : Bool) (endOffset : Nat) : Stream :=
  if fin then { s with finReceived := true, finalOffset := endOffset } else s

/-- Stores the parts of a fragment that are not covered yet, within the budget. -/
def retain (s : Stream) (fragmentOffset : Nat) (fragment : Bytes) : Except String Stream :=
  if fragment.length = 0 then .ok s
  else if maxSlice < fragment.length then
    .error "QUIC stream fragment exceeds SwByteArray slice limits"
  else
    match uncovered fragmentOffset fragment s.fragments.entries fragmentOffset with
    | .error message => .error message
    | .ok (additions, cursor) =>
      let fragmentEnd := fragmentOffset + fragment.length
      let additions := if cursor < fragmentEnd then
          additions ++ [(cursor, slice fragment (cursor - fragmentOffset) (fragmentEnd - cursor))]
        else additions
      let addedBytes := (additions.map fun added => added.2.length).sum
      if s.maxBufferedBytes < s.bufferedBytes + addedBytes ∨
          s.maxFragments < s.fragments.entries.length + additions.length then
        .error "QUIC stream reassembly budget exceeded"
      else
        .ok { s with
          fragments := additions.foldl (fun map added => map.insert added.1 added.2) s.fragments
          bufferedBytes := s.bufferedBytes + addedBytes }

def receive (s : Stream) (offset : Nat) (data : Bytes) (fin : Bool) : Except String Stream :=
  let endOffset := offset + data.length
  if maxUInt64 < endOffset then .error "QUIC stream fragment offset overflows"
  else match if fin then s.finalConflict endOffset else none with
  | some message => .error message
  | none =>
    if s.finReceived ∧ s.finalOffset < endOffset then
      .error "QUIC stream fragment exceeds final offset"
    else if endOffset ≤ s.readOffset then .ok (s.finish fin endOffset)
    else if offset < s.readOffset then
      let trim := s.readOffset - offset
      if maxSlice < trim ∨ maxSlice < data.length - trim then
        .error "QUIC stream fragment is too large for SwByteArray slicing"
      else match s.retain s.readOffset (slice data trim (data.length - trim)) with
        | .ok retained => .ok (retained.finish fin endOffset)
        | .error message => .error message
    else match s.retain offset data with
      | .ok retained => .ok (retained.finish fin endOffset)
      | .error message => .error message

/-- Takes the fragments that continue what was read, in order. -/
def readFragments : List (Nat × Bytes) → Stream → Bytes → Stream × Bytes
  | [], s, out => (s, out)
  | (start, data) :: rest, s, out =>
    let dropped := { s with
      fragments := s.fragments.erase start, bufferedBytes := s.bufferedBytes - data.length }
    if start + data.length ≤ s.readOffset then readFragments rest dropped out
    else if s.readOffset < start then (s, out)
    else
      let trim := s.readOffset - start
      let readable := data.length - trim
      if maxSlice < readable then (s, out)
      else readFragments rest { dropped with readOffset := s.readOffset + readable }
        (out ++ slice data trim readable)

def readContiguous (s : Stream) : Stream × Bytes := readFragments s.fragments.entries s []

def isReceiveComplete (s : Stream) : Bool := s.finReceived && decide (s.finalOffset ≤ s.readOffset)

end Stream
end SwStack.Quic

namespace SwStack.Quic

structure StreamFlowControl where
  initialWindow : Nat
  maxDataLimit : Nat
  highestReceivedOffset : Nat
  bytesConsumed : Nat
  deriving DecidableEq

namespace StreamFlowControl

def open_ (initialWindow : Nat) : StreamFlowControl :=
  { initialWindow, maxDataLimit := initialWindow, highestReceivedOffset := 0, bytesConsumed := 0 }

def onDataReceived (flow : StreamFlowControl) (offset length : Nat) :
    Except String StreamFlowControl :=
  if maxUInt64 < offset + length then .error "FLOW_CONTROL_ERROR"
  else if flow.maxDataLimit < offset + length then .error "FLOW_CONTROL_ERROR"
  else .ok { flow with highestReceivedOffset := max flow.highestReceivedOffset (offset + length) }

def consume (flow : StreamFlowControl) (bytes : Nat) : StreamFlowControl :=
  { flow with bytesConsumed := flow.bytesConsumed + bytes }

def shouldSendMaxStreamData (flow : StreamFlowControl) : Bool :=
  (flow.maxDataLimit - flow.initialWindow) + flow.initialWindow / 2 < flow.bytesConsumed

def nextMaxStreamData (flow : StreamFlowControl) : Nat := flow.bytesConsumed + flow.initialWindow

def applyMaxStreamData (flow : StreamFlowControl) : StreamFlowControl :=
  { flow with maxDataLimit := flow.nextMaxStreamData }

end StreamFlowControl

structure ConnectionFlowControl where
  initialWindow : Nat
  maxDataLimit : Nat
  bytesReceived : Nat
  bytesConsumed : Nat
  peerMaxData : Nat
  deriving DecidableEq

namespace ConnectionFlowControl

def open_ (initialWindow peerMaxData : Nat) : ConnectionFlowControl :=
  { initialWindow, maxDataLimit := initialWindow, bytesReceived := 0, bytesConsumed := 0
    peerMaxData }

def onDataReceived (flow : ConnectionFlowControl) (length : Nat) :
    Except String ConnectionFlowControl :=
  if maxUInt64 < flow.bytesReceived + length then .error "FLOW_CONTROL_ERROR"
  else if flow.maxDataLimit < flow.bytesReceived + length then .error "FLOW_CONTROL_ERROR"
  else .ok { flow with bytesReceived := flow.bytesReceived + length }

def consume (flow : ConnectionFlowControl) (bytes : Nat) : ConnectionFlowControl :=
  { flow with bytesConsumed := flow.bytesConsumed + bytes }

def shouldSendMaxData (flow : ConnectionFlowControl) : Bool :=
  (flow.maxDataLimit - flow.initialWindow) + flow.initialWindow / 2 < flow.bytesConsumed

def nextMaxData (flow : ConnectionFlowControl) : Nat := flow.bytesConsumed + flow.initialWindow

def applyMaxData (flow : ConnectionFlowControl) : ConnectionFlowControl :=
  { flow with maxDataLimit := flow.nextMaxData }

def sendableBytes (flow : ConnectionFlowControl) (alreadySent : Nat) : Nat :=
  flow.peerMaxData - alreadySent

end ConnectionFlowControl
end SwStack.Quic
