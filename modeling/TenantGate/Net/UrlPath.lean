import TenantGate.Text.Encoding

/-!
Paths of addresses, as they are built up segment by segment. A segment `..` takes the last one
away, a segment `.` adds nothing, and the first slash is never taken away.
-/
namespace TenantGate.Net

/-- The escaped bytes of a fragment: controls, blanks, quotes, angle brackets and backticks. -/
def escapedInFragment (b : UInt8) : Bool :=
  b < 0x20 || b == 0x7F || b == 0x20 || b == 0x22 || b == 0x3C || b == 0x3E || b == 0x60

/-- The escaped bytes of a path: those of a fragment, number signs, question marks and braces. -/
def escapedInPath (b : UInt8) : Bool :=
  escapedInFragment b || b == 0x23 || b == 0x3F || b == 0x7B || b == 0x7D

/-- The escaped bytes of one segment: those of a path, slashes, percent signs and, where a
backslash is a slash, backslashes. -/
def escapedInSegment (special : Bool) (b : UInt8) : Bool :=
  escapedInPath b || b == 0x2F || b == 0x25 || (special && b == 0x5C)

def escapedInUser (b : UInt8) : Bool :=
  escapedInPath b || b == 0x2F || b == 0x3A || b == 0x3B || b == 0x3D || b == 0x40 ||
    (0x5B ≤ b && b ≤ 0x5E) || b == 0x7C

def escapedInQuery (special : Bool) (b : UInt8) : Bool :=
  b < 0x20 || b == 0x7F || b == 0x20 || b == 0x22 || b == 0x23 || b == 0x3C || b == 0x3E ||
    (special && b == 0x27)

def escapedControl (b : UInt8) : Bool := b < 0x20 || b == 0x7F

def escape (escaped : UInt8 → Bool) (cs : List Char) : List Char :=
  Text.percentEncode escaped (Utf8.encode (String.ofList cs))

def isIgnored (c : Char) : Bool := c == '\t' || c == '\n' || c == '\r'

inductive Move where
  | up
  | stay
  | down
deriving Repr, DecidableEq

/-- A segment of dots, each of which may be escaped, moves up or stays. -/
def moveOf (segment : List Char) : Move :=
  let s := (String.ofList segment).toLower
  if s == ".." || s == ".%2e" || s == "%2e." || s == "%2e%2e" then .up
  else if s == "." || s == "%2e" then .stay
  else .down

def uptoSlash (path : List Char) : List Char := (path.reverse.dropWhile (· != '/')).reverse

def endsWithSlash (path : List Char) : Bool := path.getLast? == some '/'

/-- Whether a drive, a letter and a colon or bar, stands between the last two slashes. -/
def isDrive (segment : List Char) : Bool :=
  match segment with
  | letter :: mark :: more =>
    letter.isAlpha && (mark == ':' || mark == '|') &&
      match more with
      | [] => true
      | c :: _ => c == '/' || c == '\\' || c == '?' || c == '#'
  | _ => false

/-- Takes the last slash away unless it is the first one or follows a drive. -/
def dropSlash (path : List Char) : List Char :=
  let before := path.dropLast
  if endsWithSlash path && before.contains '/' &&
      !isDrive (path.drop (uptoSlash before).length) then before
  else path

def addSegment (path segment : List Char) (slash : Bool) : List Char :=
  match moveOf segment with
  | .up =>
    let shorter := uptoSlash (dropSlash path)
    if slash && !endsWithSlash shorter then shorter ++ ['/'] else shorter
  | .stay => if endsWithSlash path then path else path ++ ['/']
  | .down => path ++ segment ++ (if slash then ['/'] else [])

def pathPieces (special : Bool) : List Char → List (List Char × Bool)
  | [] => [([], false)]
  | c :: cs =>
    if c == '/' || (special && c == '\\') then ([], true) :: pathPieces special cs
    else
      match pathPieces special cs with
      | (piece, slash) :: more => (c :: piece, slash) :: more
      | [] => [([c], false)]

def addPath (special : Bool) (path text : List Char) : List Char :=
  (pathPieces special text).foldl
    (fun path (piece, slash) => addSegment path (escape escapedInPath piece) slash) path

def oneLeadingSlash (path : List Char) : List Char := '/' :: path.dropWhile (· == '/')

/-- The path with a colon behind the drive that it starts with, if it starts with one. -/
def drivePath? (path : List Char) : Option (List Char) :=
  match path with
  | '/' :: letter :: _ :: rest =>
    if isDrive (path.drop 1) then some ('/' :: letter :: ':' :: rest) else none
  | _ => none

end TenantGate.Net
