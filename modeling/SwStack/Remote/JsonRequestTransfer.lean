import SwStack.Lib.MapWeight
import SwStack.Types.JsonText

/-! Requests and results that are too long for one packet. A request is sent to an assembler in
chunks of hexadecimal digits, each at the offset it continues, and is handled when it is committed;
a result is kept for a while and read page by page, each page up to the start of a character. -/
namespace SwStack.Remote

open SwStack.Lib SwStack.Types

/-- The limit on requests and on results. -/
def maxBytes : Nat := 2 * 1024 * 1024

/-- What is sent in one packet. -/
def packetLimit : Nat := 3000

/-- How long a transfer waits for its next chunk, in nanoseconds. -/
def transferTimeout : Nat := 30 * 1000000000

variable (numbers : Numbers)

structure Pending where
  bytes : Nat
  data : Bytes
  touched : Nat
  deriving DecidableEq

structure Assembler where
  pending : SortedMap Bytes Pending
  epoch : Bytes
  next : Nat

/-- The token of the next transfer. -/
def Assembler.nextToken (assembler : Assembler) : Bytes :=
  assembler.epoch ++ ascii "-" ++ decimal ((assembler.next + 1) % 2 ^ 64)

/-- What a request comes to: an answer, or a request for the handler. -/
inductive Dispatched where
  | answer (out : JsonObject)
  | handle (request : JsonObject)

def operationOf (request : JsonObject) : Bytes :=
  (request.value (ascii "operation")).toString numbers

def tokenOf (request : JsonObject) : Bytes :=
  (request.value (ascii "request_token")).toString numbers

def isTransfer (operation : Bytes) : Bool := SwString.startsWith operation (ascii "$request_")

def nibble (c : UInt8) : Option Nat :=
  if 0x30 ≤ c ∧ c ≤ 0x39 then some (c.toNat - 0x30)
  else if 0x61 ≤ c ∧ c ≤ 0x66 then some (c.toNat - 0x61 + 10)
  else none

/-- The bytes of pairs of digits. -/
def decodeHex : Bytes → Option Bytes
  | high :: low :: rest => do
    let byte := UInt8.ofNat (((← nibble high) <<< 4) ||| (← nibble low))
    return byte :: (← decodeHex rest)
  | _ => some []

/-- Drops the transfers that nobody went on with. -/
def prune (now : Nat) (pending : SortedMap Bytes Pending) : SortedMap Bytes Pending :=
  pending.filter fun _ transfer => !decide (transferTimeout < now - transfer.touched)

def requestBegin (now : Nat) (request : JsonObject) (assembler : Assembler) :
    Except String Dispatched × Assembler :=
  let bytes := request.value (ascii "bytes")
  if ¬ bytes.isInt numbers ∨ (bytes.toInteger numbers).toInt < 1 ∨
      (maxBytes : Int) < (bytes.toInteger numbers).toInt then
    (.error "Invalid JSON request transfer size", assembler)
  else if 8 ≤ assembler.pending.size then (.error "Too many JSON request transfers", assembler)
  else
    let next := (assembler.next + 1) % 2 ^ 64
    let token := assembler.nextToken
    let transfer : Pending :=
      { bytes := (bytes.toInteger numbers).toInt.toNat, data := [], touched := now }
    let pending := if assembler.pending.contains token then assembler.pending
      else assembler.pending.insert token transfer
    (.ok (.answer (JsonObject.insert [] (ascii "request_token") (.string token))),
      { assembler with pending, next })

/-- Whether a chunk continues a transfer, and is no longer than what is missing. -/
def continues (request : JsonObject) (transfer : Pending) : Bool :=
  let offset := request.value (ascii "offset")
  let hex := (request.value (ascii "hex")).toString numbers
  offset.isInt numbers && decide ((offset.toInteger numbers).toInt = transfer.data.length) &&
    !hex.isEmpty && decide (hex.length ≤ 2200) && decide (hex.length % 2 = 0) &&
    decide (hex.length / 2 ≤ transfer.bytes - transfer.data.length)

def requestChunk (now : Nat) (request : JsonObject) (token : Bytes) (transfer : Pending)
    (assembler : Assembler) : Except String Dispatched × Assembler :=
  if ¬ continues numbers request transfer then
    (.error "Invalid JSON request chunk", assembler)
  else
    match decodeHex ((request.value (ascii "hex")).toString numbers) with
    | none => (.error "Invalid request encoding", assembler)
    | some chunk =>
      (.ok (.answer []), { assembler with
        pending := assembler.pending.insert token
          { transfer with data := transfer.data ++ chunk, touched := now } })

/-- What the bytes of a whole request come to. -/
def handled (data : Bytes) : Except String Dispatched :=
  match parseJsonObject numbers data with
  | none => .error "Invalid transferred JSON request"
  | some request =>
    if isTransfer (operationOf numbers request) then .error "Nested JSON request transfer"
    else .ok (.handle request)

def requestCommit (token : Bytes) (transfer : Pending) (assembler : Assembler) :
    Except String Dispatched × Assembler :=
  if transfer.data.length ≠ transfer.bytes then
    (.error "Incomplete JSON request transfer", assembler)
  else (handled numbers transfer.data,
    { assembler with pending := assembler.pending.erase token })

def dispatch (now : Nat) (request : JsonObject) (assembler : Assembler) :
    Except String Dispatched × Assembler :=
  let operation := operationOf numbers request
  if ¬ isTransfer operation then (.ok (.handle request), assembler)
  else
    let assembler := { assembler with pending := prune now assembler.pending }
    let token := tokenOf numbers request
    if operation = ascii "$request_begin" then requestBegin numbers now request assembler
    else if operation = ascii "$request_abort" then
      (.ok (.answer []), { assembler with pending := assembler.pending.erase token })
    else
      match assembler.pending.find? token with
      | none => (.error "Unknown or expired JSON request transfer", assembler)
      | some transfer =>
        if operation = ascii "$request_chunk" then
          requestChunk numbers now request token transfer assembler
        else if operation = ascii "$request_commit" then
          requestCommit numbers token transfer assembler
        else (.error "Unknown JSON request transfer operation", assembler)

structure JsonRequestUpload where
  encoded : Bytes
  token : Bytes
  offset : Nat
  final : Bool

/-- A packet: the request itself, or a request about its transfer. -/
inductive Packet where
  | whole (encoded : Bytes)
  | request (object : JsonObject)

namespace JsonRequestUpload

def start (encoded : Bytes) : Except String JsonRequestUpload :=
  if maxBytes < encoded.length then .error "JSON request exceeds 2 MiB"
  else .ok { encoded, token := [], offset := 0, final := false }

def beginRequest (upload : JsonRequestUpload) : JsonObject :=
  let value : JsonObject := []
  let value := value.insert (ascii "operation") (.string (ascii "$request_begin"))
  value.insert (ascii "bytes") (.integer (Int64.ofNat upload.encoded.length))

def first (upload : JsonRequestUpload) : Packet × JsonRequestUpload :=
  if upload.encoded.length ≤ packetLimit then
    (.whole upload.encoded, { upload with final := true })
  else (.request upload.beginRequest, { upload with final := false })

/-- A request about a transfer that is under way. -/
def transferRequest (upload : JsonRequestUpload) (operation : Bytes) : JsonObject :=
  let value : JsonObject := []
  let value := value.insert (ascii "request_token") (.string upload.token)
  value.insert (ascii "operation") (.string operation)

def chunkRequest (upload : JsonRequestUpload) (stop : Nat) : JsonObject :=
  let chunk := (upload.encoded.drop upload.offset).take (stop - upload.offset)
  let value := upload.transferRequest (ascii "$request_chunk")
  let value := value.insert (ascii "offset") (.integer (Int64.ofNat upload.offset))
  value.insert (ascii "hex") (.string (toHex chunk))

/-- The chunk from the offset on, or the commit behind the last. -/
def nextRequest (upload : JsonRequestUpload) : JsonObject × JsonRequestUpload :=
  if upload.offset < upload.encoded.length then
    let stop := min upload.encoded.length (upload.offset + 1100)
    (upload.chunkRequest stop, { upload with offset := stop })
  else (upload.transferRequest (ascii "$request_commit"), { upload with final := true })

def advance (response : JsonObject) (upload : JsonRequestUpload) :
    Except Bytes (Option JsonObject × JsonRequestUpload) := do
  if upload.final then return (none, upload)
  let succeeded := response.value (ascii "ok")
  if ¬ succeeded.isBool then throw (ascii "Invalid JSON upload response")
  if ¬ succeeded.toBool then
    throw (SwString.toUtf8 ((response.value (ascii "error")).toString numbers))
  let data : JsonObject := match response.value (ascii "data") with
    | .object members => members
    | _ => []
  let token := if upload.token.isEmpty then (data.value (ascii "request_token")).toString numbers
    else upload.token
  if token.isEmpty then throw (ascii "Missing JSON upload token")
  let (request, next) := nextRequest { upload with token }
  return (some request, next)

end JsonRequestUpload

/-- The response around an answer. -/
def respond (out : JsonObject) : JsonObject :=
  let response : JsonObject := []
  let response := response.insert (ascii "ok") (.boolean true)
  response.insert (ascii "data") (.object out)

structure Exchange where
  upload : JsonRequestUpload
  request : JsonObject
  assembler : Assembler
  outcome : Option (Except Bytes Dispatched)

inductive Event where
  | own (now : Nat)
  | other (now : Nat) (request : JsonObject)

def Event.isOwn : Event → Bool
  | own _ => true
  | other _ _ => false

def Event.time : Event → Nat
  | own now | other now _ => now

namespace Exchange

/-- What the client does with an answer. -/
def answered (exchange : Exchange) (assembler : Assembler) (out : JsonObject) : Exchange :=
  match exchange.upload.advance numbers (respond out) with
  | .error message => { exchange with assembler, outcome := some (.error message) }
  | .ok (none, upload) =>
    { exchange with upload, assembler, outcome := some (.ok (.answer out)) }
  | .ok (some request, upload) => { exchange with upload, request, assembler }

def step (exchange : Exchange) : Event → Exchange
  | .other now request =>
    { exchange with assembler := (dispatch numbers now request exchange.assembler).2 }
  | .own now =>
    match exchange.outcome, dispatch numbers now exchange.request exchange.assembler with
    | some _, _ => exchange
    | none, (.error message, assembler) =>
      { exchange with assembler, outcome := some (.error (ascii message)) }
    | none, (.ok (.handle request), assembler) =>
      { exchange with assembler, outcome := some (.ok (.handle request)) }
    | none, (.ok (.answer out), assembler) => exchange.answered numbers assembler out

def run (exchange : Exchange) (events : List Event) : Exchange :=
  events.foldl (step numbers) exchange

end Exchange

end SwStack.Remote
