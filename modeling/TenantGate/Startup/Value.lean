import TenantGate.Decimal.Reading
import TenantGate.Decimal.Shortest
import TenantGate.Text.Printable

/-!
Values of a configuration and their conversion to the types of its fields. Texts and numbers are
taken for one another where that makes sense; lists and tables are never taken for anything else.
-/
namespace TenantGate.Startup

/-- A value. Of lists and tables only matters that they are there, and whether a table is empty. -/
inductive Value where
  | boolean (b : Bool)
  | integer (i : Int)
  | float (x : Float)
  | text (s : String)
  | list
  | table (isEmpty : Bool)
deriving Repr

structure Sourced where
  value : Value
  origin : Option String
deriving Repr

/-- Why a value cannot be used: what was found, what was expected, and where it comes from. -/
structure Mismatch where
  found : String
  expected : String
  origin : Option String
deriving Repr, DecidableEq

namespace Mismatch

def message (m : Mismatch) (key : String) : String :=
  "invalid type: " ++ m.found ++ ", expected " ++ m.expected ++ " for key `" ++ key ++ "`" ++
    (m.origin.map fun o => " in " ++ o).getD ""

end Mismatch

namespace Value

def describe : Value → String
  | .boolean b => "boolean `" ++ toString b ++ "`"
  | .integer i => "64-bit integer `" ++ toString i ++ "`"
  | .float x => "floating point `" ++ Decimal.plainText x ++ "`"
  | .text s => "string " ++ Text.quote s
  | .list => "sequence"
  | .table _ => "map"

end Value

def greatestNatural : Nat := 0xFFFFFFFFFFFFFFFF

/-- The natural number nearest to a float, within 64 bits; what is no number counts as zero. -/
def roundedNatural (x : Float) : Nat :=
  if x.isNaN || x ≤ 0 then 0
  else if 18446744073709551616.0 ≤ x then greatestNatural
  else x.round.toUInt64.toNat

def textNatural? (s : String) : Option Nat :=
  let word := s.toLower
  if word == "true" || word == "on" || word == "yes" then some 1
  else if word == "false" || word == "off" || word == "no" then some 0
  else
    match Decimal.integerWithin? 0 greatestNatural s with
    | some i => some i.toNat
    | none => (Decimal.float? s).map roundedNatural

namespace Sourced

def mismatch {α : Type} (v : Sourced) (expected : String) : Except Mismatch α :=
  .error ⟨v.value.describe, expected, v.origin⟩

def natural (v : Sourced) : Except Mismatch Nat :=
  match v.value with
  | .boolean b => .ok (if b then 1 else 0)
  | .integer i =>
    if 0 ≤ i then .ok i.toNat else v.mismatch "an unsigned 64 bit or less integer"
  | .float x => .ok (roundedNatural x)
  | .text s =>
    match textNatural? s with
    | some n => .ok n
    | none => v.mismatch "an integer"
  | _ => v.mismatch "an integer"

def natural16 (v : Sourced) : Except Mismatch UInt16 :=
  match v.natural with
  | .ok n =>
    if n < 65536 then .ok (UInt16.ofNat n)
    else
      .error ⟨"64-bit unsigned integer `" ++ toString n ++ "`", "an unsigned 16 bit integer", none⟩
  | .error m => .error m

def text (v : Sourced) : Except Mismatch String :=
  match v.value with
  | .boolean b => .ok (toString b)
  | .integer i => .ok (toString i)
  | .float x => .ok (Decimal.plainText x)
  | .text s => .ok s
  | _ => v.mismatch "a string"

end Sourced

end TenantGate.Startup
