import SwStack.Mail.HeaderReading
import SwStack.Types.Base64

/-! DKIM signatures: canonical forms, the signer and the verifier. The hash and the signature
scheme are parameters, as are the clock and the generated header values. -/
namespace SwStack.Mail

open SwStack.Lib SwStack.Types

def isWsp (byte : UInt8) : Bool := byte = 0x20 || byte = 0x09

def stripTrailing (blank : UInt8 → Bool) (text : Bytes) : Bytes :=
  (text.reverse.dropWhile blank).reverse

/-- A run of blanks becomes one space. The flag tells whether the last byte was a blank. -/
def reduceStep (blank : UInt8 → Bool) (state : Bytes × Bool) (byte : UInt8) : Bytes × Bool :=
  if blank byte then (if state.2 then state.1 else state.1 ++ [0x20], true)
  else (state.1 ++ [byte], false)

def reduceBlanks (blank : UInt8 → Bool) (text : Bytes) : Bytes :=
  (text.foldl (reduceStep blank) ([], false)).1

def messageBody (raw : Bytes) : Bytes :=
  match cutAt crlfcrlf raw with
  | some cut => cut.2
  | none => []

def canonicalizeBodyRelaxed (raw : Bytes) : Bytes :=
  let lines := (splitPair 0x0d 0x0a (messageBody raw)).map fun line =>
    reduceBlanks isWsp (stripTrailing isWsp line)
  let lines := (lines.reverse.dropWhile (· = [])).reverse
  let out := lines.flatMap (· ++ crlf)
  if out = [] then crlf else out

def reducedValue (value : Bytes) : Bytes :=
  stripTrailing (· = 0x20)
    ((reduceBlanks SwString.isBlank (SwString.trimmed value)).dropWhile (· = 0x20))

def canonicalizeHeaderLineRelaxed (name value : Bytes) : Bytes :=
  SwString.toLower name ++ [0x3a] ++ reducedValue value ++ crlf

/-- `sign` is given the private key's text, `verify` the public key, the input and the
signature. -/
structure Crypto where
  sha256 : Bytes → Bytes
  sign : Bytes → Bytes → Except String Bytes
  verify : Bytes → Bytes → Bytes → Bool

def computeBodyHashRelaxed (crypto : Crypto) (raw : Bytes) : Bytes :=
  base64Encode (crypto.sha256 (canonicalizeBodyRelaxed raw))

/-- The canonical line without its line end. -/
def withoutLineEnd (line : Bytes) : Bytes :=
  if crlf.isSuffixOf line then line.take (line.length - 2) else line

structure DkimRecord where
  domain : Bytes
  selector : Bytes
  privateKeyPem : Bytes
  publicKeyTxt : Bytes

/-- What the clock and the id generator give while a message is signed. -/
structure Moment where
  messageId : Bytes
  date : Bytes
  epochMs : Int64

def signedHeaderNames : List Bytes :=
  [ascii "from", ascii "to", ascii "cc", ascii "reply-to", ascii "subject", ascii "date",
    ascii "message-id", ascii "in-reply-to", ascii "references", ascii "mime-version",
    ascii "content-type", ascii "auto-submitted"]

def headerList (signedHeaders : List Bytes) : Bytes :=
  signedHeaders.foldl (fun list name =>
    (if list = [] then [] else list ++ [0x3a]) ++ SwString.toLower name) []

def buildSigningHeader (domain selector : Bytes) (epochMs : Int64) (signedHeaders : List Bytes)
    (bodyHash : Bytes) : Bytes :=
  ascii "v=1; a=rsa-sha256; c=relaxed/relaxed; d=" ++ SwString.toLower domain ++
    ascii "; s=" ++ SwString.toLower selector ++
    ascii "; t=" ++ SwString.number (epochMs / 1000) ++
    ascii "; h=" ++ headerList signedHeaders ++
    ascii "; bh=" ++ bodyHash ++
    ascii "; b="

def canonicalizeHeaders (headers : SortedMap Bytes Bytes) (names : List Bytes) : Bytes :=
  names.flatMap fun name =>
    canonicalizeHeaderLineRelaxed (SwString.toLower name)
      ((headers.find? (SwString.toLower name)).getD [])

/-- The fields of `signedHeaderNames` that the message has. -/
def headerNames (headers : SortedMap Bytes Bytes) : List Bytes :=
  signedHeaderNames.filter fun name => headers.contains (SwString.toLower name)

def prepared (moment : Moment) (rawMessage : Bytes) : Bytes :=
  ensureMessageEnvelopeHeaders moment.messageId moment.date rawMessage [] []

def signingHeader (crypto : Crypto) (moment : Moment) (record : DkimRecord) (raw : Bytes) : Bytes :=
  buildSigningHeader record.domain record.selector moment.epochMs
    (headerNames (parseHeaders raw)) (computeBodyHashRelaxed crypto raw)

def signingInput (crypto : Crypto) (moment : Moment) (record : DkimRecord) (raw : Bytes) : Bytes :=
  canonicalizeHeaders (parseHeaders raw) (headerNames (parseHeaders raw)) ++
    withoutLineEnd (canonicalizeHeaderLineRelaxed (ascii "DKIM-Signature")
      (signingHeader crypto moment record raw))

/-- `domainKey` is what `ensureDomainKey` comes to. -/
def signMessage (crypto : Crypto) (moment : Moment) (domainKey : Except String DkimRecord)
    (rawMessage : Bytes) : Except String Bytes :=
  match domainKey with
  | .error error => .error error
  | .ok record =>
    let raw := prepared moment rawMessage
    if computeBodyHashRelaxed crypto raw = [] then .error "Unable to compute DKIM body hash"
    else
      match crypto.sign record.privateKeyPem (signingInput crypto moment record raw) with
      | .error error => .error error
      | .ok signature =>
        .ok (ascii "DKIM-Signature: " ++ signingHeader crypto moment record raw ++
          base64Encode signature ++ crlf ++ raw)

inductive VerifyResult where
  | none
  | pass
  | fail
  | tempError
  | permError
  deriving DecidableEq

structure DkimSignatureResult where
  domain : Bytes
  selector : Bytes
  result : VerifyResult
  reason : String
  deriving DecidableEq

def kMaxDkimSignatures : Nat := 5

/-- What a `const char *` shows of a text. -/
def cString (text : Bytes) : Bytes := text.takeWhile (· ≠ 0)

def trim (text : Bytes) : Bytes := stripTrailing isSpace (text.dropWhile isSpace)

def stripWs (text : Bytes) : Bytes := text.filter fun byte => !isSpace byte

def tagName (segment : Bytes) : Bytes :=
  SwString.toLower (trim (segment.takeWhile (· ≠ 0x3d)))

def addTag (tags : SortedMap Bytes Bytes) (segment : Bytes) : SortedMap Bytes Bytes :=
  if 0x3d ∈ segment ∧ tagName segment ≠ [] then
    tags.insert (tagName segment) (trim ((segment.dropWhile (· ≠ 0x3d)).drop 1))
  else tags

def parseTags (text : Bytes) : SortedMap Bytes Bytes := (text.splitOn 0x3b).foldl addTag ∅

def getTag (tags : SortedMap Bytes Bytes) (key : String) : Bytes :=
  (tags.find? (ascii key)).getD []

/-- The value of the tag b goes, the rest stays as it is. -/
def emptyBSegment (segment : Bytes) : Bytes :=
  if 0x3d ∈ segment ∧ tagName segment = ascii "b" then
    segment.takeWhile (· ≠ 0x3d) ++ [0x3d]
  else segment

def emptyBTag (text : Bytes) : Bytes :=
  List.intercalate [0x3b] ((text.splitOn 0x3b).map emptyBSegment)

/-- Names that the tag h lists. -/
def listedNames (hTag : Bytes) : List Bytes :=
  ((hTag.splitOn 0x3a).map fun name => SwString.toLower (trim name)).filter (· ≠ [])

/-- Each listing of a name takes the last occurrence not taken yet; `remaining` counts those
left. A name without one adds nothing. -/
def takeField (raw : Bytes) (state : SortedMap Bytes Nat × Bytes) (name : Bytes) :
    SortedMap Bytes Nat × Bytes :=
  let values := headerOccurrences raw (cString name)
  match (state.1.find? name).getD values.length with
  | 0 => (state.1.insert name 0, state.2)
  | left + 1 =>
    (state.1.insert name left,
      state.2 ++ canonicalizeHeaderLineRelaxed (cString name) (values.getD left []))

def buildSigningInput (raw hTag sigRawValue : Bytes) : Bytes :=
  ((listedNames hTag).foldl (takeField raw) (∅, [])).2 ++
    withoutLineEnd (canonicalizeHeaderLineRelaxed (ascii "dkim-signature")
      (cString (emptyBTag sigRawValue)))

def rsaVerify (crypto : Crypto) (pubKeyBase64 input sigBase64 : Bytes) : Bool :=
  let der := base64Decode (cString pubKeyBase64)
  if der = [] then false else crypto.verify der input (base64Decode (cString sigBase64))

/-- The two canonicalizations that the tag c names. -/
def canonicalizations (tag : Bytes) : Bytes × Bytes :=
  let c := if SwString.toLower tag = [] then ascii "simple/simple" else SwString.toLower tag
  if 0x2f ∈ c then (c.takeWhile (· ≠ 0x2f), (c.dropWhile (· ≠ 0x2f)).drop 1)
  else (c, ascii "simple")

def verifyOne (crypto : Crypto) (epochMs : Int64) (txtLookup : Bytes → Bytes)
    (raw sigRawValue : Bytes) : DkimSignatureResult :=
  let tags := parseTags sigRawValue
  let unread (reason : String) : DkimSignatureResult :=
    { domain := [], selector := [], result := .permError, reason }
  if getTag tags "v" ≠ ascii "1" then unread "unsupported version"
  else if SwString.toLower (getTag tags "a") ≠ ascii "rsa-sha256" then
    unread "unsupported algorithm"
  else if canonicalizations (getTag tags "c") ≠ (ascii "relaxed", ascii "relaxed") then
    unread "unsupported canonicalization"
  else
    let domain := cString (stripTrailing (· = 0x2e) (SwString.toLower (getTag tags "d")))
    let selector := cString (getTag tags "s")
    let answer (result : VerifyResult) (reason : String) : DkimSignatureResult :=
      { domain, selector, result, reason }
    let bh := stripWs (getTag tags "bh")
    let b := stripWs (getTag tags "b")
    let h := getTag tags "h"
    if stripTrailing (· = 0x2e) (SwString.toLower (getTag tags "d")) = [] ∨ selector = [] ∨
        bh = [] ∨ b = [] ∨ h = [] then answer .permError "missing required tag"
    else
      let expiry := (strtoll (cString (getTag tags "x"))).value
      if getTag tags "x" ≠ [] ∧ 0 < expiry ∧ expiry < epochMs / 1000 then
        answer .fail "signature expired"
      else if computeBodyHashRelaxed crypto raw ≠ bh then answer .fail "body hash mismatch"
      else
        let keyTxt := txtLookup (selector ++ ascii "._domainkey." ++ domain)
        if keyTxt = [] then answer .tempError "no DKIM key (dns)"
        else
          let keyTags := parseTags keyTxt
          let p := stripWs (getTag keyTags "p")
          let k := SwString.toLower (getTag keyTags "k")
          if p = [] then answer .permError "key revoked"
          else if k ≠ [] ∧ k ≠ ascii "rsa" then answer .permError "unsupported key type"
          else if rsaVerify crypto p (buildSigningInput raw h sigRawValue) b then answer .pass ""
          else answer .fail "signature mismatch"

def verifyMessage (crypto : Crypto) (epochMs : Int64) (txtLookup : Bytes → Bytes)
    (rawMessage : Bytes) : List DkimSignatureResult :=
  ((headerOccurrences rawMessage (ascii "dkim-signature")).take kMaxDkimSignatures).map
    (verifyOne crypto epochMs txtLookup rawMessage)

end SwStack.Mail
