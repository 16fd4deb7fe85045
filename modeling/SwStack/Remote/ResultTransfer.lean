import SwStack.Remote.Upload

/-! Results that are too long for one packet. The service keeps the text of a result and serves it
in pages, each moved back to the start of a character; the client asks for the page behind what it
has. A page is empty where a character seems to begin two thousand bytes before the next one. -/
namespace SwStack.Remote

open SwStack.Lib SwStack.Types

structure Result where
  token : Bytes
  text : Bytes
  expires : Nat

structure Results where
  results : List Result
  epoch : Bytes
  nextResult : Nat

/-- How long a result is kept, in nanoseconds. -/
def resultTimeout : Nat := 5 * 1000000000

def pruneResults (now : Nat) (results : List Result) : List Result :=
  results.dropWhile fun result => decide (result.expires ≤ now)

/-- What a result is answered with: its text, or where to read it. -/
inductive ResultReply where
  | inline (encoded : Bytes)
  | paged (token : Bytes) (bytes : Nat)

def respondResult (now : Nat) (encoded : Bytes) (service : Results) :
    Except String ResultReply × Results :=
  if encoded.length ≤ packetLimit then (.ok (.inline encoded), service)
  else if maxBytes < encoded.length then (.error "Result exceeds 2 MiB", service)
  else
    let results := pruneResults now service.results
    if results.length = 16 then
      (.error "RtDb result transfer queue full; read again", { service with results })
    else
      let nextResult := (service.nextResult + 1) % 2 ^ 64
      let token := service.epoch ++ ascii "-" ++ decimal nextResult
      (.ok (.paged token encoded.length), { service with
        results := results ++ [{ token, text := encoded, expires := now + resultTimeout }]
        nextResult })

def continuesCharacter (byte : UInt8) : Bool := byte &&& 0xc0 = 0x80

/-- The last start of a character from an end down to an offset. -/
def characterStart (text : Bytes) (offset : Nat) : Nat → Nat
  | 0 => 0
  | stop + 1 =>
    if stop + 1 < text.length ∧ offset < stop + 1 ∧ continuesCharacter (text.getD (stop + 1) 0) then
      characterStart text offset stop
    else stop + 1

def pageEnd (text : Bytes) (offset : Nat) : Nat :=
  characterStart text offset (min text.length (offset + 2000))

def page (text : Bytes) (offset : Nat) : Bytes :=
  SwString.mid text offset (toInt (pageEnd text offset - offset))

def readResult (now : Nat) (token : Bytes) (offset : Int) (service : Results) :
    Except String Bytes × Results :=
  let results := pruneResults now service.results
  if offset < 0 then (.error "Negative result offset", { service with results })
  else
    match results.find? fun result => decide (result.token = token) with
    | none => (.error "Result expired; read again", { service with results })
    | some result =>
      if result.text.length ≤ offset.toNat then
        (.error "Result offset out of range", { service with results })
      else
        (.ok (page result.text offset.toNat), { service with
          results := if pageEnd result.text offset.toNat = result.text.length then
              results.eraseP fun result => decide (result.token = token)
            else results })

structure Download where
  token : Bytes
  bytes : Nat
  contents : Bytes

/-- What a client begins with behind the answer that names a result. -/
def Download.start (token : Bytes) (bytes : Nat) : Except String Download :=
  if bytes < 1 ∨ maxBytes < bytes then .error "Invalid RtDb result descriptor"
  else if token = [] then .error "Empty RtDb result token"
  else .ok { token, bytes, contents := [] }

/-- A page is taken as long as it brings something and no more than is missing. -/
def Download.receive (chunk : Bytes) (download : Download) : Except String Download :=
  if chunk = [] ∨ download.bytes - download.contents.length < chunk.length then
    .error "Invalid RtDb result chunk"
  else .ok { download with contents := download.contents ++ chunk }

structure ResultExchange where
  download : Download
  service : Results
  outcome : Option (Except String Bytes)

/-- A read of the client, a read of another client, and another result. -/
inductive ResultEvent where
  | own (now : Nat)
  | read (now : Nat) (token : Bytes) (offset : Int)
  | respond (now : Nat) (encoded : Bytes)

def ResultEvent.time : ResultEvent → Nat
  | own now | read now _ _ | respond now _ => now

def ResultEvent.isOwn : ResultEvent → Bool
  | own _ => true
  | _ => false

namespace ResultExchange

/-- What the client does with an answer. -/
def received (exchange : ResultExchange) (service : Results) :
    Except String Download → ResultExchange
  | .error message => { exchange with service, outcome := some (.error message) }
  | .ok download =>
    { download, service, outcome := if download.contents.length = download.bytes then
        some (.ok download.contents) else none }

def step (exchange : ResultExchange) : ResultEvent → ResultExchange
  | .read now token offset =>
    { exchange with service := (readResult now token offset exchange.service).2 }
  | .respond now encoded =>
    { exchange with service := (respondResult now encoded exchange.service).2 }
  | .own now =>
    match exchange.outcome with
    | some _ => exchange
    | none =>
      let answer := readResult now exchange.download.token exchange.download.contents.length
        exchange.service
      exchange.received answer.2 (answer.1.bind fun chunk => exchange.download.receive chunk)

def run (exchange : ResultExchange) (events : List ResultEvent) : ResultExchange :=
  events.foldl step exchange

end ResultExchange

end SwStack.Remote
