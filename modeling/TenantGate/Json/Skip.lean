import TenantGate.Json.Cursor

/-!
Values that nobody reads. A machine takes one byte at a time and keeps the open lists and objects
on a stack, so any depth can be skipped. Only the syntax is looked at: numbers have no range here,
strings may hold any bytes from 0x20 on, and surrogate escapes need no partner.
-/
namespace TenantGate.Json

inductive Frame where
  | list
  | object
deriving Repr, DecidableEq

inductive Mode where
  | item
  | opened (frame : Frame)
  | key
  | colon
  | text (isKey : Bool)
  | escape (isKey : Bool)
  | hex (isKey valid : Bool) (left : Nat)
  | literal (first : UInt8) (more : List UInt8)
  | sign
  | zero
  | whole
  | point
  | fraction
  | exponent
  | exponentSign
  | exponentDigits
  | done
deriving Repr

/-- The machine's answer to one byte: go on behind it, stop in front of it, or refuse it. -/
inductive Verdict where
  | advance (mode : Mode) (frames : List Frame)
  | stop
  | refuse (cause : Cause)
deriving Repr

def Mode.atEnd : Mode → List Frame → Option Cause
  | .item, _ => some .endOfValue
  | .opened .list, _ => some .endOfList
  | .opened .object, _ => some .endOfObject
  | .key, _ => some .endOfObject
  | .colon, _ => some .endOfObject
  | .text _, _ => some .endOfString
  | .escape _, _ => some .endOfString
  | .hex _ _ _, _ => some .endOfString
  | .literal _ _, _ => some .endOfValue
  | .sign, _ => some .invalidNumber
  | .point, _ => some .invalidNumber
  | .exponent, _ => some .invalidNumber
  | .exponentSign, _ => some .invalidNumber
  | _, [] => none
  | _, .list :: _ => some .endOfList
  | _, .object :: _ => some .endOfObject

def Verdict.ofItem (b : UInt8) (frames : List Frame) : Verdict :=
  if isSpace b then .advance .item frames
  else if b == 0x6E then .advance (.literal 0x75 [0x6C, 0x6C]) frames
  else if b == 0x74 then .advance (.literal 0x72 [0x75, 0x65]) frames
  else if b == 0x66 then .advance (.literal 0x61 [0x6C, 0x73, 0x65]) frames
  else if b == 0x2D then .advance .sign frames
  else if b == 0x30 then .advance .zero frames
  else if isDigit b then .advance .whole frames
  else if b == 0x22 then .advance (.text false) frames
  else if b == 0x5B then .advance (.opened .list) (.list :: frames)
  else if b == 0x7B then .advance (.opened .object) (.object :: frames)
  else .refuse .expectedValue

def Verdict.ofKey (b : UInt8) (frames : List Frame) : Verdict :=
  if isSpace b then .advance .key frames
  else if b == 0x22 then .advance (.text true) frames
  else .refuse .keyNotString

def Verdict.ofDone (b : UInt8) : List Frame → Verdict
  | [] => .stop
  | .list :: frames =>
    if isSpace b then .advance .done (.list :: frames)
    else if b == 0x2C then .advance .item (.list :: frames)
    else if b == 0x5D then .advance .done frames
    else .refuse .expectedListEnd
  | .object :: frames =>
    if isSpace b then .advance .done (.object :: frames)
    else if b == 0x2C then .advance .key (.object :: frames)
    else if b == 0x7D then .advance .done frames
    else .refuse .expectedObjectEnd

def isHexDigit (b : UInt8) : Bool :=
  isDigit b || (0x61 ≤ b && b ≤ 0x66) || (0x41 ≤ b && b ≤ 0x46)

def isExponent (b : UInt8) : Bool := b == 0x65 || b == 0x45

def isShortEscape (b : UInt8) : Bool :=
  b == 0x22 || b == 0x5C || b == 0x2F || b == 0x62 || b == 0x66 || b == 0x6E || b == 0x72 ||
    b == 0x74

def Mode.step (b : UInt8) (frames : List Frame) : Mode → Verdict
  | .item => .ofItem b frames
  | .opened .list =>
    if isSpace b then .advance (.opened .list) frames
    else if b == 0x5D then .advance .done (frames.drop 1)
    else .ofItem b frames
  | .opened .object =>
    if isSpace b then .advance (.opened .object) frames
    else if b == 0x7D then .advance .done (frames.drop 1)
    else .ofKey b frames
  | .key => .ofKey b frames
  | .colon =>
    if isSpace b then .advance .colon frames
    else if b == 0x3A then .advance .item frames
    else .refuse .expectedColon
  | .text isKey =>
    if b == 0x22 then .advance (if isKey then .colon else .done) frames
    else if b == 0x5C then .advance (.escape isKey) frames
    else if b < 0x20 then .refuse .controlCharacter
    else .advance (.text isKey) frames
  | .escape isKey =>
    if b == 0x75 then .advance (.hex isKey true 3) frames
    else if isShortEscape b then .advance (.text isKey) frames
    else .refuse .invalidEscape
  | .hex isKey valid left =>
    match left with
    | 0 =>
      if valid && isHexDigit b then .advance (.text isKey) frames else .refuse .invalidEscape
    | left + 1 => .advance (.hex isKey (valid && isHexDigit b) left) frames
  | .literal first more =>
    if b == first then
      match more with
      | [] => .advance .done frames
      | second :: more => .advance (.literal second more) frames
    else .refuse .expectedIdent
  | .sign =>
    if b == 0x30 then .advance .zero frames
    else if isDigit b then .advance .whole frames
    else .refuse .invalidNumber
  | .zero =>
    if isDigit b then .refuse .invalidNumber
    else if b == 0x2E then .advance .point frames
    else if isExponent b then .advance .exponent frames
    else .ofDone b frames
  | .whole =>
    if isDigit b then .advance .whole frames
    else if b == 0x2E then .advance .point frames
    else if isExponent b then .advance .exponent frames
    else .ofDone b frames
  | .point => if isDigit b then .advance .fraction frames else .refuse .invalidNumber
  | .fraction =>
    if isDigit b then .advance .fraction frames
    else if isExponent b then .advance .exponent frames
    else .ofDone b frames
  | .exponent =>
    if b == 0x2B || b == 0x2D then .advance .exponentSign frames
    else if isDigit b then .advance .exponentDigits frames
    else .refuse .invalidNumber
  | .exponentSign => if isDigit b then .advance .exponentDigits frames else .refuse .invalidNumber
  | .exponentDigits =>
    if isDigit b then .advance .exponentDigits frames else .ofDone b frames
  | .done => .ofDone b frames

/-- A control character is blamed before it is read, any other byte after it. -/
def Cause.placeOf (cause : Cause) (place : Place) (b : UInt8) : Place :=
  match cause with
  | .controlCharacter => place
  | _ => place.after b

def skipFrom (mode : Mode) (frames : List Frame) (place : Place) :
    List UInt8 → Except Fault Cursor
  | [] =>
    match mode.atEnd frames with
    | some cause => .error ⟨cause, place, []⟩
    | none => .ok ⟨[], place⟩
  | b :: rest =>
    match mode.step b frames with
    | .advance mode frames => skipFrom mode frames (place.after b) rest
    | .stop => .ok ⟨b :: rest, place⟩
    | .refuse cause => .error ⟨cause, cause.placeOf place b, []⟩

def skipValue (c : Cursor) : Except Fault Cursor := skipFrom .item [] c.place c.rest

end TenantGate.Json
