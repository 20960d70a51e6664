import ZonePropagation.Endpoint
import ZonePropagation.Text.Numeral
import ZonePropagation.Text.Lowercase
import ZonePropagation.Text.Punycode
import ZonePropagation.Text.Split
/-!
Absolute URLs, read by the rules of the URL Standard.

A reader forgives a lot: blanks at the ends, backslashes for slashes, spaces in paths.  What it
gives back is in the standard form: the host in lower case, an address in its usual spelling, dot
segments resolved, and whatever may not stand in a URL percent-encoded.
-/

namespace ZonePropagation.Http

structure Url where
  scheme : String
  username : String := ""
  password : String := ""
  host : Option String := none
  port : Option Nat := none
  path : String := ""
  query : Option String := none
  fragment : Option String := none
deriving DecidableEq, Repr

namespace Url

/-! Percent encoding -/

def encodeOctet (octet : UInt8) : String :=
  let digits := (Octets.toHex [octet]).map Char.toUpper
  "%" ++ digits

def encodeWith (also : List Char) (text : List Char) : String :=
  String.join (text.map fun character =>
    if character.toNat < 0x20 || 0x7E < character.toNat || also.contains character then
      String.join ((Octets.ofText character.toString).map encodeOctet)
    else character.toString)

def fragmentSet : List Char := [' ', '"', '<', '>', Char.ofNat 96]

def querySet : List Char := [' ', '"', '#', '<', '>']

def pathSet : List Char := fragmentSet ++ ['#', '?', '\x7b', '\x7d']

def userSet : List Char := pathSet ++ ['/', ':', ';', '=', '@', '[', '\\', ']', '^', '|']

def decodeOctets : List UInt8 → List UInt8
  | 37 :: high :: low :: rest =>
      match Octets.hexValue? (Char.ofNat high.toNat), Octets.hexValue? (Char.ofNat low.toNat) with
      | some upper, some lower => (16 * upper + lower) :: decodeOctets rest
      | _, _ => 37 :: decodeOctets (high :: low :: rest)
  | octet :: rest => octet :: decodeOctets rest
  | [] => []

/-! Hosts -/

/-- The number a part of a dotted address spells: hexadecimal after `0x`, octal after `0`. -/
def addressPart? (part : List Char) : Option Nat :=
  let inBase (base : Nat) (digits : List Char) : Option Nat :=
    if digits.isEmpty then some 0
    else (InternetAddress.number? base none true (Nat.pow 2 64) digits).bind fun read =>
      if read.2.isEmpty then some read.1 else none
  match part with
  | [] => none
  | ['0'] => some 0
  | '0' :: 'x' :: digits => inBase 16 digits
  | '0' :: 'X' :: digits => inBase 16 digits
  | '0' :: digits => inBase 8 digits
  | digits => inBase 10 digits

def hostLabels (host : String) : List String :=
  let labels := host.splitOn "."
  if labels.length > 1 && labels.getLast? == some "" then labels.dropLast else labels

/-- The last label looks like a number, so that the host has to be an address. -/
def endsInNumber (host : String) : Bool :=
  match (hostLabels host).getLast? with
  | none => false
  | some label =>
      (label != "" && label.all Char.isDigit) || (label.startsWith "0x" &&
        (addressPart? label.toList).isSome)

/-- The address of a host in dotted form.  The last part fills all octets that are left. -/
def dottedAddress? (host : String) : Option String := do
  let parts ← (hostLabels host).mapM fun label => addressPart? label.toList
  let last ← parts.getLast?
  let leading := parts.dropLast
  if leading.length > 3 || leading.any (255 < ·) || Nat.pow 256 (4 - leading.length) ≤ last then none
  let high := leading.foldl (fun value part => 256 * value + part) 0
  let value := high * Nat.pow 256 (4 - leading.length) + last
  return InternetAddress.dotted (value / Nat.pow 2 24) (value / Nat.pow 2 16 % 256) (value / Nat.pow 2 8 % 256)
    (value % 256)

def asciiLabel (label : String) : String :=
  if label.toList.all (fun character => character.toNat < 128) then label
  else "xn--" ++ String.ofList (Text.Punycode.encode label.toList)

def isForbidden (character : Char) : Bool :=
  character.toNat ≤ 0x20 || character == Char.ofNat 0x7F ||
    ['#', '%', '/', ':', '<', '>', '?', '@', '[', '\\', ']', '^', '|'].contains character

def text6 (groups : List Nat) : String :=
  let (start, length) := InternetAddress.longestZeros 0 groups
  if length > 1 then
    InternetAddress.colonGroups (groups.take start) ++ "::" ++
      InternetAddress.colonGroups (groups.drop (start + length))
  else InternetAddress.colonGroups groups

def host? (text : List Char) : Option String :=
  match text with
  | '[' :: rest =>
      if rest.getLast? == some ']' then
        (InternetAddress.ofText6? rest.dropLast).map fun groups => s!"[{text6 groups}]"
      else none
  | _ => do
      let decoded ← Octets.text? (decodeOctets (Octets.ofText (String.ofList text))).toArray
      let host := ".".intercalate (((Text.lowercase decoded).splitOn ".").map asciiLabel)
      if host == "" || host.any isForbidden then none
      else if endsInNumber host then dottedAddress? host
      else return host

/-! Parts -/

def usualPort? (scheme : String) : Option Nat :=
  match scheme with
  | "http" | "ws" => some 80
  | "https" | "wss" => some 443
  | "ftp" => some 21
  | _ => none

/-- The text before a separator, and the text after it if the separator occurs. -/
def splitFirst (separator : Char) (text : List Char) : List Char × Option (List Char) :=
  match Text.splitFirst? separator text with
  | some (before, after) => (before, some after)
  | none => (text, none)

def hostAndPort (text : List Char) : List Char × List Char :=
  match text with
  | '[' :: _ =>
      let inside := text.takeWhile (· != ']')
      let host := text.take (inside.length + 1)
      (host, (text.drop host.length).drop 1)
  | _ =>
      let (host, port) := splitFirst ':' text
      (host, port.getD [])

def port? (usual : Option Nat) (digits : List Char) : Option (Option Nat) :=
  if digits.isEmpty then some none
  else
    match Text.digits? digits with
    | some port =>
        if port ≤ 65535 then some (if usual == some port then none else some port) else none
    | none => none

def dots (segment : List Char) : Nat :=
  match (String.ofList segment).toLower with
  | "." | "%2e" => 1
  | ".." | ".%2e" | "%2e." | "%2e%2e" => 2
  | _ => 0

/-- The segments of a path with dot segments resolved; `done` holds those before, latest first. -/
def resolve (done : List (List Char)) : List (List Char) → List (List Char)
  | [] => done.reverse
  | [last] =>
      match dots last with
      | 0 => (last :: done).reverse
      | 1 => ([] :: done).reverse
      | _ => ([] :: done.drop 1).reverse
  | segment :: rest =>
      match dots segment with
      | 0 => resolve (segment :: done) rest
      | 1 => resolve done rest
      | _ => resolve (done.drop 1) rest

def standardPath (text : List Char) : String :=
  let rooted := match text with
    | '/' :: rest => rest
    | rest => rest
  "/" ++ "/".intercalate ((resolve [] (rooted.splitOn '/')).map (encodeWith pathSet))

/-- The text without blanks and controls at its ends, and without tabs and line ends inside. -/
def cleaned (text : String) : List Char :=
  let isEdge (character : Char) : Bool := character.toNat ≤ 0x20
  let kept := ((text.toList.dropWhile isEdge).reverse.dropWhile isEdge).reverse
  kept.filter fun character => !(['\t', '\n', '\r'].contains character)

def scheme? (text : List Char) : Option (String × List Char) :=
  match text with
  | first :: _ =>
      let scheme := text.takeWhile fun character =>
        character.isAlphanum || ['+', '-', '.'].contains character
      match first.isAlpha, text.drop scheme.length with
      | true, ':' :: rest => some ((String.ofList scheme).toLower, rest)
      | _, _ => none
  | [] => none

def withAuthority? (scheme : String) (standard : Bool) (text : List Char)
    (query fragment : Option String) : Option Url := do
  let isSlash (character : Char) : Bool := character == '/' || (standard && character == '\\')
  let authority := text.takeWhile fun character => !isSlash character
  let (user, place) := (Text.splitLast? '@' authority).getD ([], authority)
  let (username, password) := splitFirst ':' user
  let (host, port) := hostAndPort place
  let path := (text.drop authority.length).map fun character =>
    if isSlash character then '/' else character
  return {
    scheme
    username := encodeWith userSet username
    password := encodeWith userSet (password.getD [])
    host := some (← if standard then host? host else some (encodeWith [] host))
    port := ← port? (usualPort? scheme) port
    path := if standard || !path.isEmpty then standardPath path else ""
    query
    fragment }

def ofText? (text : String) : Option Url := do
  let (scheme, rest) ← scheme? (cleaned text)
  let standard := (usualPort? scheme).isSome
  let (beforeFragment, fragmentText) := splitFirst '#' rest
  let (place, queryText) := splitFirst '?' beforeFragment
  let fragment := fragmentText.map (encodeWith fragmentSet)
  let query := queryText.map (encodeWith (if standard then '\'' :: querySet else querySet))
  if standard then
    withAuthority? scheme true
      (place.dropWhile fun character => character == '/' || character == '\\') query fragment
  else
    match place with
    | '/' :: '/' :: authority => withAuthority? scheme false authority query fragment
    | '/' :: path => return { scheme, path := standardPath path, query, fragment }
    | path => return { scheme, path := encodeWith [] path, query, fragment }

def requestTarget (url : Url) : String :=
  url.path ++ match url.query with
    | some query => "?" ++ query
    | none => ""

def text (url : Url) : String :=
  let authority := match url.host, url.port with
    | some host, some port => s!"//{host}:{port}"
    | some host, none => s!"//{host}"
    | none, _ => ""
  let fragment := match url.fragment with
    | some fragment => "#" ++ fragment
    | none => ""
  url.scheme ++ ":" ++ authority ++ url.requestTarget ++ fragment

end Url

end ZonePropagation.Http
