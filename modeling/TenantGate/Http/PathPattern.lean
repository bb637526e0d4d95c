import TenantGate.Text.Encoding

/-!
Path patterns. A segment `:name` stands for any one segment, though not for an empty one at the end
of the path, a last segment `*name` for all the rest of the path when that is not empty, and any
other segment for itself.
-/
namespace TenantGate.Http

inductive Segment where
  | literal (text : List UInt8)
  | one (name : String)
  | rest (name : String)
deriving Repr, DecidableEq

def splitPath : List UInt8 → List (List UInt8)
  | [] => [[]]
  | b :: more =>
    if b == 0x2F then [] :: splitPath more
    else
      match splitPath more with
      | piece :: pieces => (b :: piece) :: pieces
      | [] => [[b]]

def joinPath : List (List UInt8) → List UInt8
  | [] => []
  | [piece] => piece
  | piece :: pieces => piece ++ 0x2F :: joinPath pieces

def Segment.ofBytes : List UInt8 → Segment
  | 0x3A :: name => .one (Utf8.decodeLossy name)
  | 0x2A :: name => .rest (Utf8.decodeLossy name)
  | text => .literal text

def patternOf (template : String) : List Segment :=
  (splitPath (Utf8.encode template)).map Segment.ofBytes

/-- The values that a path gives to the names of a pattern, as they stand in the path. -/
def matchSegments : List Segment → List (List UInt8) → Option (List (String × List UInt8))
  | [], [] => some []
  | .literal text :: pattern, piece :: pieces =>
    if text == piece then matchSegments pattern pieces else none
  | .one name :: pattern, piece :: pieces =>
    if piece.isEmpty && pattern.isEmpty then none
    else (matchSegments pattern pieces).map fun values => (name, piece) :: values
  | .rest name :: _, piece :: pieces =>
    let whole := joinPath (piece :: pieces)
    if whole.isEmpty then none else some [(name, whole)]
  | _, _ => none

/-- Of two patterns that fit a path, whether the first is the closer one: a literal segment before
a name for one segment before a name for the rest. -/
def isCloser : List Segment → List Segment → Bool
  | .literal _ :: p, .literal _ :: q => isCloser p q
  | .one _ :: p, .one _ :: q => isCloser p q
  | .literal _ :: _, .one _ :: _ => true
  | .literal _ :: _, .rest _ :: _ => true
  | .one _ :: _, .rest _ :: _ => true
  | _, _ => false

def decodeValues : List (String × List UInt8) → Except String (List (String × String))
  | [] => .ok []
  | (name, raw) :: more =>
    match Utf8.decode? (Text.percentDecode raw) with
    | some value => (decodeValues more).map fun values => (name, value) :: values
    | none => .error name

end TenantGate.Http
