import TenantGate.Http.Message

/-!
Media types, as far as telling JSON from the rest needs them: `application/json`, or a type under
`application` with the suffix `json`, in any case and with any well-formed parameters.
-/
namespace TenantGate.Http

structure MediaType where
  type : List UInt8
  subtype : List UInt8
  suffix : Option (List UInt8)
deriving Repr, DecidableEq

namespace MediaType

def lowerByte (b : UInt8) : UInt8 := if 0x41 ≤ b && b ≤ 0x5A then b + 0x20 else b

inductive Spot where
  | beforeName
  | name
  | beforeValue
  | value
  | firstQuoted
  | quoted
  | behindQuoted
deriving Repr, DecidableEq

def Spot.step? (s : Spot) (b : UInt8) : Option Spot :=
  match s with
  | .beforeName =>
    if b == 0x20 then some .beforeName else if isTokenByte b then some .name else none
  | .name =>
    if isTokenByte b then some .name else if b == 0x3D then some .beforeValue else none
  | .beforeValue =>
    if b == 0x22 then some .firstQuoted else if isTokenByte b then some .value else none
  | .value =>
    if isTokenByte b then some .value else if b == 0x3B then some .beforeName else none
  | .firstQuoted => if 31 < b && b != 127 then some .quoted else none
  | .quoted =>
    if b == 0x22 then some .behindQuoted else if 31 < b && b != 127 then some .quoted else none
  | .behindQuoted =>
    if b == 0x3B then some .beforeName else if b == 0x20 then some .behindQuoted else none

def Spot.isFinal : Spot → Bool
  | .beforeName | .beforeValue | .value | .behindQuoted => true
  | .name | .firstQuoted | .quoted => false

def parametersFit (s : Spot) : List UInt8 → Bool
  | [] => s.isFinal
  | b :: rest =>
    match s.step? b with
    | some next => parametersFit next rest
    | none => false

/-- Splits at the last plus sign that has something before it. -/
def cutSuffix (bytes : List UInt8) : List UInt8 × Option (List UInt8) :=
  let behind := bytes.reverse.takeWhile (· != 0x2B)
  let before := bytes.take (bytes.length - behind.length - 1)
  if behind.length == bytes.length || before.isEmpty then (bytes, none)
  else (before, some behind.reverse)

def ofBytes? (bytes : List UInt8) : Option MediaType :=
  let type := bytes.takeWhile isTokenByte
  match bytes.dropWhile isTokenByte with
  | 0x2F :: rest =>
    let name := rest.takeWhile isTokenByte
    let fits := match rest.dropWhile isTokenByte with
      | [] => true
      | b :: parameters => b == 0x3B && !name.isEmpty && parametersFit .beforeName parameters
    if type.isEmpty || !fits then none
    else
      let (subtype, suffix) := cutSuffix (name.map lowerByte)
      some ⟨type.map lowerByte, subtype, suffix⟩
  | _ => none

def application : List UInt8 := Utf8.encode "application"

def json : List UInt8 := Utf8.encode "json"

def isJson (m : MediaType) : Bool :=
  m.type == application && (m.subtype == json || m.suffix == some json)

end MediaType

def bodyIsJson (headers : List Header) : Bool :=
  match firstValue? headers "content-type" with
  | some value =>
    value.all Header.isVisibleByte &&
      match MediaType.ofBytes? value with
      | some m => m.isJson
      | none => false
  | none => false

end TenantGate.Http
