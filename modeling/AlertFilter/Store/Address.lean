import AlertFilter.Json.Printer

/-!
# Web addresses

An address is parsed as browsers do it: slashes and backslashes separate segments, dot segments are
resolved, a question mark begins the query and a number sign the fragment. Characters that may not
stand for themselves are percent-encoded, byte by byte. What a server gets to see is the target,
path and query; the fragment stays behind.
-/

namespace AlertFilter

/-- An address; the service is the number behind the host, unless it is the usual one. -/
structure Address where
  secure : Bool
  host : String
  service : Option Nat
  path : List Char
  query : Option (List Char)
  fragment : Option (List Char)

namespace Address

def byteDigit (n : Nat) : Char := (Json.hexDigit n).toUpper

def encodeByte (b : UInt8) : List Char :=
  ['%', byteDigit (b.toNat / 16), byteDigit (b.toNat % 16)]

/-- Encodes the characters that a set names, and all that are not printable ASCII. -/
def encode (reserved : List Char) (cs : List Char) : List Char :=
  cs.flatMap fun c =>
    if c.toNat < 0x20 ∨ 0x7F ≤ c.toNat ∨ c ∈ reserved then
      (String.ofList [c]).toUTF8.toList.flatMap encodeByte
    else [c]

def fragmentReserved : List Char := [' ', '"', '<', '>', Char.ofNat 0x60]

def pathReserved : List Char := fragmentReserved ++ ['#', '?', '{', '}']

def queryReserved : List Char := [' ', '"', '#', '<', '>', Char.ofNat 0x27]

def isSlash (c : Char) : Bool := c = '/' || c = '\\'

/-- A segment with its dots written out, in lower case. -/
def plainDots : List Char → List Char
  | '%' :: '2' :: 'e' :: rest => '.' :: plainDots rest
  | '%' :: '2' :: 'E' :: rest => '.' :: plainDots rest
  | c :: rest => c :: plainDots rest
  | [] => []

/-- The segments between slashes: one more than there are slashes. -/
def splitSegments : List Char → List (List Char)
  | [] => [[]]
  | c :: rest =>
    if isSlash c then [] :: splitSegments rest
    else match splitSegments rest with
      | first :: others => (c :: first) :: others
      | [] => [[c]]

/-- Resolves dot segments; `done` holds the segments so far, last one first. A dot segment at the
end leaves a slash. -/
def resolve (done : List (List Char)) : List (List Char) → List (List Char)
  | [] => done.reverse
  | segment :: rest =>
    let dots := plainDots segment
    if dots = ['.', '.'] then
      if rest.isEmpty then ([] :: done.tail).reverse else resolve done.tail rest
    else if dots = ['.'] then
      if rest.isEmpty then ([] :: done).reverse else resolve done rest
    else resolve (encode pathReserved segment :: done) rest

/-- The path of what stands between host and query, which begins with a slash or is empty. -/
def normalPath (cs : List Char) : List Char :=
  (resolve [] (splitSegments (cs.drop 1))).flatMap fun segment => '/' :: segment

/-- What stands before the first of some characters, and what stands from there on. -/
def splitAtAny (stops : List Char) (cs : List Char) : List Char × List Char :=
  (cs.takeWhile (· ∉ stops), cs.dropWhile (· ∉ stops))

/-- Whether a character may not stand in a host name. -/
def isForbiddenHost (c : Char) : Bool :=
  c.toNat ≤ 0x20 || c.toNat = 0x7F ||
    c ∈ ['#', '/', ':', '<', '>', '?', '@', '[', '\\', ']', '^', '|', '%']

/-- The host without the name of a user before it, and the service. -/
def readHost? (secure : Bool) (cs : List Char) : Option (String × Option Nat) :=
  let cs := (cs.reverse.takeWhile (· ≠ '@')).reverse
  let (host, behind) :=
    if cs.head? = some '[' then
      let inside := cs.takeWhile (· ≠ ']')
      (inside ++ (cs.drop inside.length).take 1, (cs.drop inside.length).drop 1)
    else splitAtAny [':'] cs
  let name := if host.head? = some '[' then (host.drop 1).dropLast else host
  let forbidden := if host.head? = some '[' then name.any (fun c => isForbiddenHost c && c ≠ ':')
    else name.any isForbiddenHost
  if name.isEmpty || forbidden then none
  else
    let host := String.ofList (host.map Char.toLower)
    match behind with
    | [] => some (host, none)
    | ':' :: digits =>
      if digits.isEmpty then some (host, none)
      else if digits.all Char.isDigit then
        let service := Decimal.natOfDigits digits
        if 65535 < service then none
        else some (host, if service = (if secure then 443 else 80) then none else some service)
      else none
    | _ => none

/-- Control characters and spaces at the ends do not belong to an address, nor do tabs and line
breaks inside it. -/
def clean (cs : List Char) : List Char :=
  let isEdge := fun c : Char => c.toNat ≤ 0x20
  let cs := ((cs.dropWhile isEdge).reverse.dropWhile isEdge).reverse
  cs.filter fun c => c ≠ '\t' && c ≠ '\n' && c ≠ '\r'

def readScheme? (cs : List Char) : Option (Bool × List Char) :=
  let (scheme, rest) := splitAtAny [':'] cs
  match (String.ofList (scheme.map Char.toLower) : String), rest with
  | "http", _ :: rest => some (false, rest)
  | "https", _ :: rest => some (true, rest)
  | _, _ => none

def parse? (s : String) : Option Address :=
  match readScheme? (clean s.toList) with
  | none => none
  | some (secure, rest) =>
    let (authority, rest) := splitAtAny ['/', '\\', '?', '#'] (rest.dropWhile isSlash)
    match readHost? secure authority with
    | none => none
    | some (host, service) =>
      let (path, rest) := splitAtAny ['?', '#'] rest
      let (query, rest) := match rest with
        | '?' :: rest =>
          let (query, rest) := splitAtAny ['#'] rest
          (some (encode queryReserved query), rest)
        | rest => (none, rest)
      some {
        secure, host, service, query
        path := normalPath path
        fragment := match rest with
          | _ :: fragment => some (encode fragmentReserved fragment)
          | [] => none }

def target (a : Address) : String :=
  String.ofList (a.path ++ match a.query with
    | some query => '?' :: query
    | none => [])

def authority (a : Address) : String :=
  a.host ++ match a.service with
    | some service => ":" ++ toString service
    | none => ""

def text (a : Address) : String :=
  (if a.secure then "https://" else "http://") ++ a.authority ++ a.target ++
    (match a.fragment with
      | some fragment => "#" ++ String.ofList fragment
      | none => "")

end Address

end AlertFilter
