import TenantGate.Decimal.Shortest
import TenantGate.Text.Printable

/-!
What can be wrong with a JSON text: the causes, the place where reading stopped, and the path of
the value that was being read. `Fault.message` is the only place that words a fault.
-/
namespace TenantGate.Json

structure Place where
  line : Nat
  column : Nat
deriving Repr, DecidableEq

def Place.start : Place := ⟨1, 0⟩

def Place.after (p : Place) (b : UInt8) : Place :=
  if b == 10 then ⟨p.line + 1, 0⟩ else ⟨p.line, p.column + 1⟩

def Place.afterAll (p : Place) (bytes : List UInt8) : Place := bytes.foldl Place.after p

inductive Found where
  | null
  | boolean (value : Bool)
  | integer (value : Int)
  | float (value : Float)
  | text (value : String)
  | sequence
  | map
deriving Repr

def Found.describe : Found → String
  | .null => "null"
  | .boolean value => "boolean `" ++ toString value ++ "`"
  | .integer value => "integer `" ++ toString value ++ "`"
  | .float value => "floating point `" ++ Decimal.pointed.writeFloat value ++ "`"
  | .text value => "string " ++ Text.quote value
  | .sequence => "sequence"
  | .map => "map"

inductive Cause where
  | endOfValue
  | endOfObject
  | endOfList
  | endOfString
  | expectedColon
  | expectedListEnd
  | expectedObjectEnd
  | expectedValue
  | expectedIdent
  | keyNotString
  | trailingComma
  | trailingCharacters
  | invalidNumber
  | numberOutOfRange
  | invalidEscape
  | loneSurrogate
  | unfinishedSurrogate
  | invalidUnicode
  | controlCharacter
  | missingField (name : String)
  | duplicateField (name : String)
  | unknownVariant (name : String) (known : List String)
  | invalidType (found : Found) (expected : String)
  | invalidValue (found : Found) (expected : String)
  | invalidLength (length : Nat) (expected : String)
deriving Repr

inductive Kind where
  | malformed
  | cutShort
  | misfit
deriving Repr, DecidableEq

def Cause.kind : Cause → Kind
  | .endOfValue | .endOfObject | .endOfList | .endOfString => .cutShort
  | .missingField _ | .duplicateField _ | .unknownVariant _ _ | .invalidType _ _
  | .invalidValue _ _ | .invalidLength _ _ => .misfit
  | _ => .malformed

def Cause.message : Cause → String
  | .endOfValue => "EOF while parsing a value"
  | .endOfObject => "EOF while parsing an object"
  | .endOfList => "EOF while parsing a list"
  | .endOfString => "EOF while parsing a string"
  | .expectedColon => "expected `:`"
  | .expectedListEnd => "expected `,` or `]`"
  | .expectedObjectEnd => "expected `,` or `\x7d`"
  | .expectedValue => "expected value"
  | .expectedIdent => "expected ident"
  | .keyNotString => "key must be a string"
  | .trailingComma => "trailing comma"
  | .trailingCharacters => "trailing characters"
  | .invalidNumber => "invalid number"
  | .numberOutOfRange => "number out of range"
  | .invalidEscape => "invalid escape"
  | .loneSurrogate => "lone leading surrogate in hex escape"
  | .unfinishedSurrogate => "unexpected end of hex escape"
  | .invalidUnicode => "invalid unicode code point"
  | .controlCharacter => "control character (\\u0000-\\u001F) found while parsing a string"
  | .missingField name => "missing field `" ++ name ++ "`"
  | .duplicateField name => "duplicate field `" ++ name ++ "`"
  | .unknownVariant name known =>
    "unknown variant `" ++ name ++ "`, expected one of " ++
      String.intercalate ", " (known.map fun k => "`" ++ k ++ "`")
  | .invalidType found expected => "invalid type: " ++ found.describe ++ ", expected " ++ expected
  | .invalidValue found expected => "invalid value: " ++ found.describe ++ ", expected " ++ expected
  | .invalidLength length expected =>
    "invalid length " ++ toString length ++ ", expected " ++ expected

inductive Step where
  | field (name : String)
  | item (index : Nat)
deriving Repr, DecidableEq

structure Fault where
  cause : Cause
  place : Place
  path : List Step := []
deriving Repr

def pathText : List Step → String
  | [] => ""
  | .field name :: more => "." ++ name ++ pathText more
  | .item index :: more => "[" ++ toString index ++ "]" ++ pathText more

/-- The message of a fault, led by the path of the value when the fault lies inside one. -/
def Fault.message (f : Fault) : String :=
  let lead := match f.path with
    | [] => ""
    | .field name :: more => name ++ pathText more ++ ": "
    | path => pathText path ++ ": "
  lead ++ f.cause.message ++ " at line " ++ toString f.place.line ++ " column " ++
    toString f.place.column

def Fault.under (s : Step) (f : Fault) : Fault := { f with path := s :: f.path }

/-!
A cursor over the bytes of a text. It keeps the place of what was read, so a fault can always say
where reading stopped.
-/

structure Cursor where
  rest : List UInt8
  place : Place
deriving Repr

def Cursor.ofBytes (bytes : List UInt8) : Cursor := ⟨bytes, .start⟩

def Cursor.ahead (c : Cursor) : Place :=
  match c.rest with
  | [] => c.place
  | b :: _ => c.place.after b

def Cursor.blame {α : Type} (c : Cursor) (cause : Cause) : Except Fault α :=
  .error ⟨cause, c.ahead, []⟩

def Cursor.fail {α : Type} (c : Cursor) (cause : Cause) : Except Fault α :=
  .error ⟨cause, c.place, []⟩

def isSpace (b : UInt8) : Bool := b == 0x20 || b == 0x0A || b == 0x09 || b == 0x0D

def isDigit (b : UInt8) : Bool := 0x30 ≤ b && b ≤ 0x39

def digitOf (b : UInt8) : Nat := b.toNat - 0x30

def skipSpace (place : Place) : List UInt8 → Cursor
  | [] => ⟨[], place⟩
  | b :: rest => if isSpace b then skipSpace (place.after b) rest else ⟨b :: rest, place⟩

def Cursor.trim (c : Cursor) : Cursor := skipSpace c.place c.rest

def expectBytes (place : Place) : List UInt8 → List UInt8 → Except Fault Cursor
  | [], rest => .ok ⟨rest, place⟩
  | _ :: _, [] => .error ⟨.endOfValue, place, []⟩
  | e :: expected, b :: rest =>
    if b == e then expectBytes (place.after b) expected rest
    else .error ⟨.expectedIdent, place.after b, []⟩

abbrev Reader (α : Type) := Cursor → Except Fault (α × Cursor)

end TenantGate.Json
