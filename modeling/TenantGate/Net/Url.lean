import TenantGate.Net.Address
import TenantGate.Net.HostName
import TenantGate.Net.UrlPath

/-!
Addresses of services. The parts are kept in the form in which they are written again, so an
address that was read is in its normal form. An address whose part behind the scheme does not
start with a slash has no segments to add to: it cannot be a base.
-/
namespace TenantGate.Net

structure Url where
  scheme : String
  username : List Char
  password : Option (List Char)
  /-- The host behind two slashes, which may be empty where the scheme lets it. -/
  host : Option String
  port : Option Nat
  path : List Char
  query : Option (List Char)
  fragment : Option (List Char)
  opaquePath : Bool
deriving Repr, DecidableEq

inductive UrlFault where
  | relative
  | emptyHost
  | invalidDomain
  | invalidHostCharacter
  | invalidPort
  | invalidIpv4
  | invalidIpv6
deriving Repr, DecidableEq

def UrlFault.text : UrlFault → String
  | .relative => "relative URL without a base"
  | .emptyHost => "empty host"
  | .invalidDomain => "invalid international domain name"
  | .invalidHostCharacter => "invalid domain character"
  | .invalidPort => "invalid port number"
  | .invalidIpv4 => "invalid IPv4 address"
  | .invalidIpv6 => "invalid IPv6 address"

namespace Url

/-- The schemes whose addresses always have a host, with their ports. -/
def specialPort? (scheme : String) : Option Nat :=
  if scheme == "http" || scheme == "ws" then some 80
  else if scheme == "https" || scheme == "wss" then some 443
  else if scheme == "ftp" then some 21
  else none

def isSpecial (scheme : String) : Bool := scheme == "file" || (specialPort? scheme).isSome

def isSchemeChar (c : Char) : Bool := c.isAlphanum || c == '+' || c == '-' || c == '.'

def takeScheme? (text : List Char) : Option (String × List Char) :=
  let name := text.takeWhile isSchemeChar
  match name.head?, text.dropWhile isSchemeChar with
  | some first, ':' :: rest =>
    if first.isAlpha then some ((String.ofList name).toLower, rest) else none
  | _, _ => none

def isForbidden (c : Char) : Bool :=
  c.toNat ≤ 0x20 || c == '#' || c == '/' || c == ':' || c == '<' || c == '>' || c == '?' ||
    c == '@' || c == '[' || c == '\\' || c == ']' || c == '^' || c == '|' || c == '%' ||
    c == '\x7f'

def isForbiddenOpaque (c : Char) : Bool :=
  c == '\x00' || c == ' ' || c == '#' || c == '/' || c == ':' || c == '<' || c == '>' ||
    c == '?' || c == '@' || c == '[' || c == '\\' || c == ']' || c == '^' || c == '|'

def bracketed (text : List Char) : Except UrlFault String :=
  match text.getLast?, ipv6? (text.drop 1).dropLast with
  | some ']', some groups => .ok ("[" ++ ipv6Text groups ++ "]")
  | _, _ => .error .invalidIpv6

def domainText (text : List Char) : Except UrlFault (List Char) :=
  match Utf8.decode? (Text.percentDecode (Utf8.encode (String.ofList text))) with
  | none => .error .invalidDomain
  | some decoded =>
    match HostName.ascii? decoded.toList with
    | none => .error .invalidDomain
    | some ascii => if ascii.any isForbidden then .error .invalidDomain else .ok ascii

def specialHost (text : List Char) : Except UrlFault String :=
  if text.head? == some '[' then bracketed text
  else do
    let domain ← domainText text
    if domain.isEmpty then .error .emptyHost
    else if endsInNumber domain then
      match numberAddress? domain with
      | some n => return dottedText (octetsOf n)
      | none => .error .invalidIpv4
    else return String.ofList domain

def opaqueHost (text : List Char) : Except UrlFault String :=
  if text.head? == some '[' then bracketed text
  else if text.any isForbiddenOpaque then .error .invalidHostCharacter
  else .ok (String.ofList (escape escapedControl text))

def endsAuthority (special : Bool) (c : Char) : Bool :=
  c == '/' || c == '?' || c == '#' || (special && c == '\\')

def credentials (text : List Char) : List Char × Option (List Char) :=
  let name := text.takeWhile (· != ':')
  let password := text.drop (name.length + 1)
  (escape escapedInUser name,
    if password.isEmpty then none else some (escape escapedInUser password))

def cutUser (text : List Char) : Option (List Char) × List Char :=
  let host := (text.reverse.takeWhile (· != '@')).reverse
  if host.length == text.length then (none, text)
  else (some (text.take (text.length - host.length - 1)), host)

def hostLength (inside : Bool) : List Char → Nat
  | [] => 0
  | c :: cs =>
    if c == ':' && !inside then 0
    else hostLength (c == '[' || (inside && c != ']')) cs + 1

/-- The port, unless it is the one of the scheme. -/
def readPort (scheme : String) (digits : List Char) : Except UrlFault (Option Nat) :=
  if digits.isEmpty then .ok none
  else
    match Decimal.natural? digits with
    | some n =>
      if 65535 < n then .error .invalidPort
      else .ok (if specialPort? scheme == some n then none else some n)
    | none => .error .invalidPort

def readHost (scheme : String) (text : List Char) :
    Except UrlFault (Option String × Option Nat) := do
  let n := hostLength false text
  let name := text.take n
  let behind := text.drop n
  if isSpecial scheme then
    if name.isEmpty then .error .emptyHost
    else
      let host ← specialHost name
      let port ← readPort scheme (behind.drop 1)
      return (some host, port)
  else
    let host ← opaqueHost name
    if host.isEmpty then
      if behind.isEmpty then return (some "", none) else .error .emptyHost
    else
      let port ← readPort scheme (behind.drop 1)
      return (some host, port)

def pathPart (text : List Char) : List Char := text.takeWhile fun c => c != '?' && c != '#'

def readTail (special : Bool) (text : List Char) : Option (List Char) × Option (List Char) :=
  let fragmentOf (t : List Char) : Option (List Char) :=
    match t with
    | '#' :: f => some (escape escapedInFragment f)
    | _ => none
  match text with
  | '?' :: rest =>
    let query := rest.takeWhile (· != '#')
    (some (escape (escapedInQuery special) query), fragmentOf (rest.drop query.length))
  | _ => (none, fragmentOf text)

def readPath (special : Bool) (text : List Char) : List Char :=
  if special then
    match text with
    | c :: more =>
      if c == '/' || c == '\\' then addPath true ['/'] more else addPath true ['/'] text
    | [] => ['/']
  else
    match text with
    | [] => []
    | '/' :: _ => addPath false [] text
    | _ => addPath false ['/'] text

/-- The address of a scheme, a user, a host and all that follows. A path that starts with a drive
is one of this machine. -/
def assemble (scheme : String) (user : List Char × Option (List Char)) (host : Option String)
    (port : Option Nat) (rest : List Char) : Url :=
  let special := isSpecial scheme
  let text := pathPart rest
  let path := readPath special text
  let (query, fragment) := readTail special (rest.drop text.length)
  if scheme == "file" then
    let path := oneLeadingSlash path
    match drivePath? path with
    | some path => ⟨scheme, user.1, user.2, some "", port, path, query, fragment, false⟩
    | none => ⟨scheme, user.1, user.2, host, port, path, query, fragment, false⟩
  else ⟨scheme, user.1, user.2, host, port, path, query, fragment, false⟩

def readAuthority (scheme : String) (text : List Char) : Except UrlFault Url := do
  let authority := text.takeWhile fun c => !endsAuthority (isSpecial scheme) c
  let rest := text.drop authority.length
  let (user, hostText) := cutUser authority
  if user == some [] && hostText.isEmpty && !rest.isEmpty then .error .emptyHost
  else
    let (host, port) ← readHost scheme hostText
    let given := (user.map credentials).getD ([], none)
    if host == some "" && (!given.1.isEmpty || given.2.isSome) then .error .emptyHost
    else return assemble scheme given host port rest

def readFile (text : List Char) : Except UrlFault Url :=
  let isSlash (c : Char) : Bool := c == '/' || c == '\\'
  match text with
  | a :: b :: more =>
    if isSlash a && isSlash b then do
      let name := more.takeWhile fun c => !endsAuthority true c
      let rest := more.drop name.length
      let host ← if name.isEmpty then .ok "" else specialHost name
      return assemble "file" ([], none) (some (if host == "localhost" then "" else host)) none rest
    else .ok (assemble "file" ([], none) (some "") none text)
  | _ => .ok (assemble "file" ([], none) (some "") none text)

def readOther (scheme : String) (text : List Char) : Except UrlFault Url :=
  match text with
  | '/' :: '/' :: rest => readAuthority scheme rest
  | '/' :: _ => .ok (assemble scheme ([], none) none none text)
  | _ =>
    let path := pathPart text
    let (query, fragment) := readTail false (text.drop path.length)
    .ok ⟨scheme, [], none, none, none, escape escapedControl path, query, fragment, true⟩

def isEdge (c : Char) : Bool := c.toNat ≤ 0x20

def parse (text : String) : Except UrlFault Url :=
  let trimmed := ((text.toList.dropWhile isEdge).reverse.dropWhile isEdge).reverse
  match takeScheme? (trimmed.filter fun c => !isIgnored c) with
  | none => .error .relative
  | some (scheme, rest) =>
    if scheme == "file" then readFile rest
    else if isSpecial scheme then
      readAuthority scheme (rest.dropWhile fun c => c == '/' || c == '\\')
    else readOther scheme rest

def canBeBase (u : Url) : Bool := !u.opaquePath

def userText (u : Url) : String :=
  match u.password with
  | some password =>
    String.ofList u.username ++ ":" ++ String.ofList password ++ "@"
  | none => if u.username.isEmpty then "" else String.ofList u.username ++ "@"

/-- A path without a host that starts with two slashes is told apart by `/.`. -/
def pathText (u : Url) : String :=
  match u.path with
  | '/' :: '/' :: _ =>
    if u.host.isNone then "/." ++ String.ofList u.path else String.ofList u.path
  | _ => String.ofList u.path

def authorityText (u : Url) : String :=
  match u.host with
  | some host =>
    "//" ++ u.userText ++ host ++ (u.port.map fun p => ":" ++ toString p).getD ""
  | none => ""

def hasHost (u : Url) : Bool := u.host.isSome && u.host != some ""

def queryText (u : Url) : String := (u.query.map fun q => "?" ++ String.ofList q).getD ""

def text (u : Url) : String :=
  u.scheme ++ ":" ++ u.authorityText ++ u.pathText ++ u.queryText ++
    (u.fragment.map fun f => "#" ++ String.ofList f).getD ""

def dropEmptySegment (path : List Char) : List Char :=
  match path with
  | '/' :: rest => if endsWithSlash rest then path.dropLast else path
  | _ => path

/-- The path with one more segment, in which nothing is a separator. -/
def pushSegment (scheme : String) (path : List Char) (segment : String) : List Char :=
  if segment == "." || segment == ".." then path
  else
    let path := if path.length == 1 then path else path ++ ['/']
    let bare := segment.toList.filter fun c => !isIgnored c
    let path := addSegment path (escape (escapedInSegment (isSpecial scheme)) bare) false
    if scheme == "file" then oneLeadingSlash path else path

def extend (u : Url) (segments : List String) : Url :=
  { u with path := segments.foldl (pushSegment u.scheme) (dropEmptySegment u.path) }

def withoutUser (u : Url) : Url := { u with username := [], password := none }

end Url

end TenantGate.Net
