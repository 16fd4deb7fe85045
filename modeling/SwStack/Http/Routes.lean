import SwStack.Types.JsonParser
import SwStack.Types.SwString

/-! Routes with parameters: how a pattern is compiled and matched, the URL built for the name of a
route, and the reading of a request target. -/
namespace SwStack.Http

open SwStack.Lib SwStack.Types

def slash : UInt8 := 0x2f

def percent : UInt8 := 0x25

def question : UInt8 := 0x3f

/-- `split(char)`: a text that ends with the delimiter has no empty last piece. -/
def split (delimiter : UInt8) (text : Bytes) : List Bytes :=
  let pieces := text.splitOn delimiter
  if pieces.getLast? = some [] then pieces.dropLast else pieces

def swHttpPercentDecode (plusAsSpace : Bool) : Bytes → Option Bytes
  | [] => some []
  | c :: rest =>
    if plusAsSpace ∧ c = 0x2b then (swHttpPercentDecode plusAsSpace rest).map (0x20 :: ·)
    else if c = percent then
      match rest with
      | first :: second :: rest =>
        match hexValue first, hexValue second with
        | some hi, some lo =>
          (swHttpPercentDecode plusAsSpace rest).map (UInt8.ofNat (hi * 16 + lo) :: ·)
        | _, _ => none
      | _ => none
    else (swHttpPercentDecode plusAsSpace rest).map (c :: ·)

def isUnreserved (c : UInt8) : Bool :=
  (0x61 ≤ c && c ≤ 0x7a) || (0x41 ≤ c && c ≤ 0x5a) || (0x30 ≤ c && c ≤ 0x39) ||
    c = 0x2d || c = 0x5f || c = 0x2e || c = 0x7e

def percentEncode (text : Bytes) : Bytes :=
  text.flatMap fun c =>
    if isUnreserved c then [c] else [percent, hexDigit (c.toNat / 16), hexDigit (c.toNat % 16)]

/-- One `replace("//", "/")`. -/
def replaceDouble : Bytes → Bytes
  | first :: second :: rest =>
    if first = slash ∧ second = slash then slash :: replaceDouble rest
    else first :: replaceDouble (second :: rest)
  | rest => rest

/-- The loop over `replace`: a round that finds a pair shortens the text, the others leave it. -/
def mergeSlashes (text : Bytes) : Bytes := replaceDouble^[text.length] text

def swHttpNormalizePath (path : Bytes) : Bytes :=
  if path = [] then [slash]
  else mergeSlashes (if SwString.startsWith path [slash] then path else slash :: path)

def splitPath (path : Bytes) : List Bytes :=
  let normalized := swHttpNormalizePath path
  if normalized = [slash] then [] else (split slash normalized).filter (· ≠ [])

inductive ParamConstraint where
  | none
  | int
  | alpha
  | alnum
  | hex
  | slug
  | uuid
  deriving DecidableEq

inductive RouteSegment where
  | literal (text : Bytes)
  | parameter (name : Bytes) (constraint : ParamConstraint)
  | wildcard (name : Bytes)
  deriving DecidableEq

def constraintNames : List (Bytes × ParamConstraint) :=
  [(ascii "int", .int), (ascii "alpha", .alpha), (ascii "alnum", .alnum), (ascii "hex", .hex),
    (ascii "slug", .slug), (ascii "uuid", .uuid)]

/-- `name` or `name(constraint)`. -/
def parseConstraint (token : Bytes) : Option (Bytes × ParamConstraint) :=
  if (0x28 : UInt8) ∉ token then if token = [] then none else some (token, .none)
  else if token.getLast? ≠ some 0x29 then none
  else
    let name := SwString.trimmed (token.takeWhile (· ≠ 0x28))
    let spec := ((token.dropWhile (· ≠ 0x28)).drop 1).dropLast
    if name = [] then none
    else (constraintNames.lookup (SwString.toLower (SwString.trimmed spec))).map (name, ·)

def compileToken (token : Bytes) : Option RouteSegment :=
  if SwString.startsWith token [0x3a] then
    (parseConstraint (token.drop 1)).map fun found => .parameter found.1 found.2
  else if SwString.startsWith token [0x2a] then
    some (.wildcard (if token.drop 1 = [] then ascii "wildcard" else token.drop 1))
  else some (.literal token)

/-- Nothing behind a wildcard is looked at. -/
def compileTokens : List Bytes → Option (List RouteSegment)
  | [] => some []
  | token :: rest =>
    match compileToken token with
    | none => none
    | some (.wildcard name) => some [.wildcard name]
    | some segment => (compileTokens rest).map (segment :: ·)

def compilePattern (pattern : Bytes) : Option (List RouteSegment) :=
  compileTokens (splitPath pattern)

def RouteSegment.score : RouteSegment → Nat
  | .literal _ => 100
  | .parameter _ .none => 30
  | .parameter _ _ => 50
  | .wildcard _ => 1

def isDigit (c : UInt8) : Bool := 0x30 ≤ c && c ≤ 0x39

def isAlpha (c : UInt8) : Bool := (0x61 ≤ c && c ≤ 0x7a) || (0x41 ≤ c && c ≤ 0x5a)

def isHex (c : UInt8) : Bool :=
  isDigit c || (0x61 ≤ c && c ≤ 0x66) || (0x41 ≤ c && c ≤ 0x46)

def isUuid (value : Bytes) : Bool :=
  value.length = 36 && value.zipIdx.all fun entry =>
    if entry.2 ∈ [8, 13, 18, 23] then entry.1 = 0x2d else isHex entry.1

def checkConstraint (constraint : ParamConstraint) (value : Bytes) : Bool :=
  match constraint with
  | .none => true
  | .int => value ≠ [] && value.all isDigit
  | .alpha => value ≠ [] && value.all isAlpha
  | .alnum => value ≠ [] && value.all fun c => isAlpha c || isDigit c
  | .hex => value ≠ [] && value.all isHex
  | .slug => value ≠ [] && value.all fun c =>
      isAlpha c || isDigit c || c = 0x2d || c = 0x5f || c = 0x2e
  | .uuid => isUuid value

abbrev Params := SortedMap Bytes Bytes

def joinRest (path : List Bytes) : Bytes :=
  path.foldl (fun rest segment => (if rest = [] then [] else rest ++ [slash]) ++ segment) []

def matchSegments : List RouteSegment → List Bytes → Params → Option Params
  | [], path, params => if path = [] then some params else none
  | .wildcard name :: _, path, params => some (params.insert name (joinRest path))
  | _ :: _, [], _ => none
  | .literal text :: rest, current :: path, params =>
    if current = text then matchSegments rest path params else none
  | .parameter name constraint :: rest, current :: path, params =>
    if checkConstraint constraint current then
      matchSegments rest path (params.insert name current)
    else none

structure SwHttpRouteEntry where
  name : Bytes
  pattern : Bytes
  segments : List RouteSegment
  deriving DecidableEq

def SwHttpRouteEntry.specificityScore (entry : SwHttpRouteEntry) : Nat :=
  (entry.segments.map RouteSegment.score).sum

structure SwHttpRouter where
  routes : List SwHttpRouteEntry := []
  namedPatterns : Params := .empty

def normalizePattern (pattern : Bytes) : Bytes :=
  let normalized := SwString.trimmed pattern
  let normalized := if normalized = [] then [slash] else normalized
  let normalized :=
    mergeSlashes
      (if SwString.startsWith normalized [slash] then normalized else slash :: normalized)
  if 1 < normalized.length ∧ normalized.getLast? = some slash then normalized.dropLast
  else normalized

/-- The text that stands in a URL for a token of the pattern. -/
def RouteSegment.text (pathParams : Params) : RouteSegment → Option Bytes
  | .literal text => some text
  | .parameter name constraint => (pathParams.find? name).filter (checkConstraint constraint)
  | .wildcard name => pathParams.find? name

def pieceOf (pathParams : Params) (token : Bytes) : Option Bytes :=
  (compileToken token).bind (RouteSegment.text pathParams)

def pairText (pair : Bytes × Bytes) : Bytes :=
  percentEncode pair.1 ++ 0x3d :: percentEncode pair.2

def appendQueryString (url : Bytes) (queryParams : Params) : Bytes :=
  if queryParams.isEmpty then url
  else url ++ question :: [0x26].intercalate (queryParams.entries.map pairText)

namespace SwHttpRouter

/-- The method and the callback of a route play no part in its URLs. -/
def addNamedRoute (router : SwHttpRouter) (routeName pattern : Bytes) : SwHttpRouter :=
  match compilePattern (normalizePattern pattern) with
  | none => router
  | some segments =>
    let entry : SwHttpRouteEntry :=
      { name := SwString.trimmed routeName, pattern := normalizePattern pattern, segments }
    let ahead (other : SwHttpRouteEntry) : Bool := entry.specificityScore ≤ other.specificityScore
    { routes := router.routes.takeWhile ahead ++ entry :: router.routes.dropWhile ahead
      namedPatterns :=
        if entry.name = [] then router.namedPatterns
        else router.namedPatterns.insert entry.name entry.pattern }

def buildUrl (router : SwHttpRouter) (routeName : Bytes) (pathParams queryParams : Params) :
    Option Bytes :=
  match router.namedPatterns.find? routeName with
  | none => none
  | some pattern =>
    ((splitPath pattern).mapM (pieceOf pathParams)).map fun pieces =>
      appendQueryString (swHttpNormalizePath (slash :: [slash].intercalate pieces)) queryParams

end SwHttpRouter

structure SwHttpRequest where
  path : Bytes
  queryString : Bytes
  queryParams : Params

def parsePair (queryParams : Params) (pair : Bytes) : Params :=
  let keyRaw := pair.takeWhile (· ≠ 0x3d)
  let valRaw := (pair.dropWhile (· ≠ 0x3d)).drop 1
  match swHttpPercentDecode true keyRaw, swHttpPercentDecode true valRaw with
  | some key, some value => queryParams.insert key value
  | _, _ => queryParams

def swHttpParseQueryString (query : Bytes) : Params :=
  ((split 0x26 query).filter (· ≠ [])).foldl parsePair .empty

/-- Of an absolute target only what stands from the first slash of its path on is read. -/
def effectiveTarget (target : Bytes) : Bytes :=
  let text := SwString.trimmed target
  let lower := SwString.toLower text
  let rest := fun (scheme : Nat) =>
    if slash ∈ text.drop scheme then (text.drop scheme).dropWhile (· ≠ slash) else [slash]
  if SwString.startsWith lower (ascii "http://") then rest 7
  else if SwString.startsWith lower (ascii "https://") then rest 8
  else text

def parseTarget (target : Bytes) : Option SwHttpRequest :=
  let text := effectiveTarget target
  let rawPath := text.takeWhile (· ≠ question)
  let query := (text.dropWhile (· ≠ question)).drop 1
  (swHttpPercentDecode false (if rawPath = [] then [slash] else rawPath)).map fun decodedPath =>
    { path := swHttpNormalizePath decodedPath
      queryString := query
      queryParams := swHttpParseQueryString query }

end SwStack.Http
