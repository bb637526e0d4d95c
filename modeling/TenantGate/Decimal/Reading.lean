/-!
Numbers read from text: the plain integers and the decimals that a configuration value may hold.
A decimal is read with one correct rounding.
-/
namespace TenantGate.Decimal

def digit? (c : Char) : Option Nat :=
  if '0' ≤ c && c ≤ '9' then some (c.toNat - '0'.toNat) else none

def takeDigits (value : Nat) : List Char → Nat × List Char
  | [] => (value, [])
  | c :: cs =>
    match digit? c with
    | some d => takeDigits (value * 10 + d) cs
    | none => (value, c :: cs)

def natural? : List Char → Option Nat
  | [] => none
  | cs => match takeDigits 0 cs with
    | (n, []) => some n
    | _ => none

def takeSign : List Char → Bool × List Char
  | '-' :: cs => (true, cs)
  | '+' :: cs => (false, cs)
  | cs => (false, cs)

def integerWithin? (least greatest : Int) (s : String) : Option Int :=
  let (negative, cs) := takeSign s.toList
  match natural? cs with
  | some n =>
    let i : Int := if negative then -n else n
    if least ≤ i && i ≤ greatest then some i else none
  | none => none

def int64? (s : String) : Option Int := integerWithin? (-0x8000000000000000) 0x7FFFFFFFFFFFFFFF s

/-- The float nearest to `coefficient · 10 ^ exponent`; far out of range it is infinite or zero. -/
def nearest (coefficient : Nat) (exponent : Int) : Float :=
  let top : Int := (Nat.toDigits 10 coefficient).length + exponent
  if coefficient == 0 then 0
  else if 400 < top then 1.0 / 0.0
  else if top < -400 then 0
  else Float.ofScientific coefficient (exponent < 0) exponent.natAbs

def exponentPart? : List Char → Option Int
  | [] => some 0
  | c :: cs =>
    if c == 'e' || c == 'E' then
      let (negative, ds) := takeSign cs
      (natural? ds).map fun n => if negative then -n else n
    else none

/-- A decimal without sign: digits with an optional point among or around them, then an optional
exponent. -/
def unsigned? (cs : List Char) : Option Float :=
  let (whole, behind) := takeDigits 0 cs
  let wholeCount := cs.length - behind.length
  match behind with
  | '.' :: more =>
    let (all, rest) := takeDigits whole more
    let fraction := more.length - rest.length
    if wholeCount + fraction == 0 then none
    else (exponentPart? rest).map fun e => nearest all (e - fraction)
  | _ =>
    if wholeCount == 0 then none
    else (exponentPart? behind).map fun e => nearest whole e

/-- A decimal, an infinity or a value that is no number, in any case, with an optional sign. -/
def float? (s : String) : Option Float :=
  let (negative, cs) := takeSign s.toList
  let word := (String.ofList cs).toLower
  let size : Option Float :=
    if word == "inf" || word == "infinity" then some (1.0 / 0.0)
    else if word == "nan" then some (0.0 / 0.0)
    else unsigned? cs
  size.map fun x => if negative then -x else x

end TenantGate.Decimal
