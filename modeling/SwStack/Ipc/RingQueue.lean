import SwStack.Lib.Reader

/-! The ring whose messages are copied out to subscribers. Its header and slots are shared under
one lock, so that each critical section is one step; a dispatch collects a batch under the lock
and runs the callbacks outside it, and the steps of all processes interleave. -/
namespace SwStack.Ipc.RingQueue

open SwStack.Lib

inductive DeliveryMode where
  | replay
  | latestOnly
  | followPublisher
  /-- A value of the underlying type that is none of the enumerators. -/
  | other (value : Nat)
  deriving DecidableEq

def kMaxSubscriberCursors : Nat := 64

/-- The largest number of 64 bits. -/
def uint64Max : Nat := 2 ^ 64 - 1

structure SubscriberCursor where
  token : Nat
  readSeq : Nat
  subPid : Nat
  active : Bool
  mode : DeliveryMode
  deriving DecidableEq

def SubscriberCursor.empty : SubscriberCursor where
  token := 0
  readSeq := 0
  subPid := 0
  active := false
  mode := .replay

structure DynamicSlot where
  seq : Nat
  origin : Nat
  data : Bytes

/-- What does not change once the channel is created. -/
structure Layout where
  capacity : Nat
  maxPayload : Nat
  capacity_pos : 0 < capacity

structure Channel where
  cursorCount : Nat
  defaultMode : DeliveryMode
  seq : Nat
  nextToken : Nat
  cursors : Fin kMaxSubscriberCursors → SubscriberCursor
  slots : Nat → DynamicSlot

inductive PidState where
  | alive
  | dead
  | unknown
  deriving DecidableEq

namespace Channel

def setCursor (channel : Channel) (k : Fin kMaxSubscriberCursors) (cursor : SubscriberCursor) :
    Channel :=
  { channel with cursors := Function.update channel.cursors k cursor }

def findCursorLocked (channel : Channel) (token : Nat) : Option (Fin kMaxSubscriberCursors) :=
  (List.finRange kMaxSubscriberCursors).find? fun k =>
    (channel.cursors k).active && (channel.cursors k).token == token

def clearDeadCursorsLocked (probe : Nat → PidState) (channel : Channel) : Channel :=
  let dead := fun cursor : SubscriberCursor => cursor.active && probe cursor.subPid == .dead
  { channel with
    cursors := fun k => if dead (channel.cursors k) then .empty else channel.cursors k
    cursorCount := channel.cursorCount -
      (List.finRange kMaxSubscriberCursors).countP fun k => dead (channel.cursors k) }

def effectiveModeLocked (channel : Channel) (cursor : SubscriberCursor) : DeliveryMode :=
  if cursor.mode = .followPublisher then channel.defaultMode else cursor.mode

def minReadSeqLocked (channel : Channel) : Nat :=
  (List.finRange kMaxSubscriberCursors).foldl (fun minimum k =>
    let cursor := channel.cursors k
    if cursor.active && channel.effectiveModeLocked cursor == .replay then
      min minimum cursor.readSeq
    else minimum) channel.seq

/-- The token of the next subscription; zero is passed over. -/
def freshToken (nextToken : Nat) : Nat :=
  if (nextToken + 1) % 2 ^ 64 = 0 then 1 else (nextToken + 1) % 2 ^ 64

def createCursorLocked (layout : Layout) (probe : Nat → PidState) (pid : Nat) (fireInitial : Bool)
    (mode : DeliveryMode) (channel : Channel) :
    Channel × Option (Fin kMaxSubscriberCursors) :=
  let channel := channel.clearDeadCursorsLocked probe
  match (List.finRange kMaxSubscriberCursors).find? fun k => !(channel.cursors k).active with
  | none => (channel, none)
  | some k =>
    let token := freshToken channel.nextToken
    let cursor : SubscriberCursor :=
      { token, readSeq := channel.seq, subPid := pid, active := true, mode }
    let backlog :=
      if channel.effectiveModeLocked cursor = .latestOnly then 1 else layout.capacity
    let cursor := if fireInitial then { cursor with readSeq := channel.seq - backlog } else cursor
    ({ channel.setCursor k cursor with
        nextToken := token
        cursorCount := channel.cursorCount + 1 }, some k)

/-- The mode of a publication, and cursors that follow a publisher which turns to replay: they are
moved to the oldest entry left. -/
def switchMode (layout : Layout) (mode : DeliveryMode) (channel : Channel) : Channel :=
  let previousMode := channel.defaultMode
  let channel := if mode ≠ .followPublisher then { channel with defaultMode := mode } else channel
  if previousMode ≠ channel.defaultMode ∧ mode = .replay then
    let oldest := channel.seq - layout.capacity
    { channel with
      cursors := fun k =>
        let cursor := channel.cursors k
        if cursor.active && cursor.mode == .followPublisher then
          { cursor with readSeq := max cursor.readSeq oldest }
        else cursor }
  else channel

/-- A cursor that is to replay has not read the entry to be overwritten. -/
def Blocked (layout : Layout) (channel : Channel) : Prop :=
  layout.capacity ≤ channel.seq - channel.minReadSeqLocked

instance (layout : Layout) (channel : Channel) : Decidable (channel.Blocked layout) :=
  inferInstanceAs (Decidable (_ ≤ _))

def writeSlot (layout : Layout) (origin : Nat) (bytes : Bytes) (channel : Channel) : Channel :=
  let next := channel.seq + 1
  { channel with
    slots := Function.update channel.slots (next % layout.capacity)
      { seq := next, origin, data := bytes }
    seq := next }

/-- A publication and its sequence number, when it is accepted. -/
def publishBytes (layout : Layout) (probe : Nat → PidState) (origin : Nat) (bytes : Bytes)
    (mode : DeliveryMode) (channel : Channel) : Channel × Option Nat :=
  if mode ≠ .replay ∧ mode ≠ .latestOnly ∧ mode ≠ .followPublisher then (channel, none)
  else if layout.maxPayload < bytes.length then (channel, none)
  else
    let previousMode := channel.defaultMode
    let channel := channel.switchMode layout mode
    -- once the dead are gone the bound is computed again
    let channel :=
      if channel.Blocked layout then channel.clearDeadCursorsLocked probe else channel
    if channel.Blocked layout then ({ channel with defaultMode := previousMode }, none)
    else if channel.seq = uint64Max then ({ channel with defaultMode := previousMode }, none)
    else (channel.writeSlot layout origin bytes, some (channel.seq + 1))

/-- What `stop` does to the cursor of its subscription. -/
def releaseCursor (channel : Channel) (token : Nat) : Channel :=
  match channel.findCursorLocked token with
  | some k => { channel.setCursor k .empty with cursorCount := channel.cursorCount - 1 }
  | none => channel

end Channel

structure Message where
  sequence : Nat
  origin : Nat
  bytes : Bytes
  deriving DecidableEq

namespace Channel

/-- The entry of a sequence number, unless the slot holds another. -/
def entry (layout : Layout) (channel : Channel) (sequence : Nat) : Option Message :=
  let slot := channel.slots (sequence % layout.capacity)
  if slot.seq ≠ sequence ∨ layout.maxPayload < slot.data.length then none
  else some { sequence, origin := slot.origin, bytes := slot.data }

def batch (layout : Layout) (channel : Channel) (cursor : SubscriberCursor) : List Message :=
  let latest := channel.seq
  let start :=
    if channel.effectiveModeLocked cursor = .latestOnly then latest else cursor.readSeq + 1
  (List.range' start (latest + 1 - start)).filterMap (channel.entry layout)

end Channel

/-- Where a dispatch stands: a callback runs while its dispatch is `calling`. -/
inductive Phase where
  | idle
  | looping
  | collecting
  | delivering (messages : List Message)
  | calling (message : Message) (messages : List Message)

/-- How far a subscription has been stopped: `stop` first lowers its flag, then takes the lock. -/
inductive Standing where
  | active
  | stopping
  | stopped
  deriving DecidableEq

/-- `start` is where the cursor began, `received` what the callback was called with. -/
structure Subscription where
  pid : Nat
  token : Nat
  mode : DeliveryMode
  native : Nat → Nat → Bool
  standing : Standing
  gone : Bool
  phase : Phase
  start : Nat
  received : List Message

namespace Subscription

def begin (pid : Nat) (mode : DeliveryMode) (native : Nat → Nat → Bool)
    (cursor : SubscriberCursor) : Subscription where
  pid := pid
  token := cursor.token
  mode := mode
  native := native
  standing := .active
  gone := false
  phase := .idle
  start := cursor.readSeq
  received := []

/-- A callback is run for what is delivered natively or can be read as the channel's type. -/
def takes (decodes : Bytes → Bool) (sub : Subscription) (message : Message) : Bool :=
  sub.native message.sequence message.origin || decodes message.bytes

/-- The next step of a dispatch. -/
def advance (layout : Layout) (decodes : Bytes → Bool) (channel : Channel) (sub : Subscription) :
    Channel × Subscription :=
  match sub.phase with
  | .idle =>
    if sub.standing = .active then (channel, { sub with phase := .looping }) else (channel, sub)
  | .looping =>
    if sub.standing = .active then (channel, { sub with phase := .collecting })
    else (channel, { sub with phase := .idle })
  | .collecting =>
    match channel.findCursorLocked sub.token with
    | none => (channel, { sub with phase := .idle })
    | some k =>
      let cursor := channel.cursors k
      if channel.seq ≤ cursor.readSeq then (channel, { sub with phase := .idle })
      else (channel.setCursor k { cursor with readSeq := channel.seq },
        { sub with phase := .delivering (channel.batch layout cursor) })
  | .delivering [] => (channel, { sub with phase := .looping })
  | .delivering (message :: messages) =>
    if sub.standing = .active then (channel, { sub with phase := .calling message messages })
    else (channel, { sub with phase := .idle })
  | .calling message messages =>
    (channel, { sub with
      phase := .delivering messages
      received := sub.received ++ if sub.takes decodes message then [message] else [] })

end Subscription

/-- `log` holds what was published. -/
structure System where
  channel : Channel
  subs : List Subscription
  log : List Message

inductive Action where
  | publish (origin : Nat) (bytes : Bytes) (mode : DeliveryMode) (probe : Nat → PidState)
  | subscribe (pid : Nat) (fireInitial : Bool) (mode : DeliveryMode) (native : Nat → Nat → Bool)
    (probe : Nat → PidState)
  | advance (index : Nat)
  | stop (index : Nat)
  | release (index : Nat)
  | exit (pid : Nat)

namespace System

/-- A process is found dead only after it has ended. -/
def Honest (system : System) (probe : Nat → PidState) : Prop :=
  ∀ sub ∈ system.subs, probe sub.pid = .dead → sub.gone = true

instance (system : System) (probe : Nat → PidState) : Decidable (system.Honest probe) :=
  inferInstanceAs (Decidable (∀ sub ∈ system.subs, _))

/-- A subscription of a process that still runs. -/
def running (system : System) (index : Nat) : Option Subscription :=
  system.subs[index]?.filter fun sub => !sub.gone

def setSub (system : System) (index : Nat) (sub : Subscription) : System :=
  { system with subs := system.subs.set index sub }

def publish (layout : Layout) (probe : Nat → PidState) (origin : Nat) (bytes : Bytes)
    (mode : DeliveryMode) (system : System) : System :=
  match system.channel.publishBytes layout probe origin bytes mode with
  | (channel, none) => { system with channel }
  | (channel, some sequence) =>
    { system with channel, log := system.log ++ [{ sequence, origin, bytes }] }

/-- `connectStamped`; it throws in an unknown mode and when there is no free cursor. -/
def subscribe (layout : Layout) (probe : Nat → PidState) (pid : Nat) (fireInitial : Bool)
    (mode : DeliveryMode) (native : Nat → Nat → Bool) (system : System) : System :=
  if mode ≠ .replay ∧ mode ≠ .latestOnly ∧ mode ≠ .followPublisher then system
  else
    match system.channel.createCursorLocked layout probe pid fireInitial mode with
    | (channel, none) => { system with channel }
    | (channel, some k) =>
      { system with
        channel
        subs := system.subs ++ [.begin pid mode native (channel.cursors k)] }

def step (layout : Layout) (decodes : Bytes → Bool) (system : System) : Action → Option System
  | .publish origin bytes mode probe =>
    if system.Honest probe then some (system.publish layout probe origin bytes mode) else none
  | .subscribe pid fireInitial mode native probe =>
    if system.Honest probe then
      some (system.subscribe layout probe pid fireInitial mode native)
    else none
  | .advance index =>
    (system.running index).map fun sub =>
      let (channel, sub) := sub.advance layout decodes system.channel
      { system.setSub index sub with channel }
  | .stop index =>
    (system.running index).map fun sub =>
      if sub.standing = .active then system.setSub index { sub with standing := .stopping }
      else system
  | .release index =>
    ((system.running index).filter fun sub => sub.standing = .stopping).map fun sub =>
      { system.setSub index { sub with standing := .stopped } with
        channel := system.channel.releaseCursor sub.token }
  | .exit pid =>
    some
      { system with
        subs := system.subs.map fun sub => if sub.pid = pid then { sub with gone := true } else sub }

/-- A channel that was just created. -/
def created (channelMode : DeliveryMode) : System where
  channel :=
    { cursorCount := 0
      defaultMode := channelMode
      seq := 0
      nextToken := 0
      cursors := fun _ => .empty
      slots := fun _ => { seq := 0, origin := 0, data := [] } }
  subs := []
  log := []

end System
end SwStack.Ipc.RingQueue
