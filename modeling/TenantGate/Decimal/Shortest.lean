/-!
The shortest decimal that reads back as a given binary number. A number is `m · 2 ^ q`; the reals
that round to it form an interval around it, whose ends belong to it when `m` is even. For one
digit, then two, and so on, the two neighbours of the number on that decimal grid are tried: the
first grid with a neighbour in the interval wins, and of two such neighbours the nearer one.
All arithmetic is exact, on natural numbers.
-/
namespace TenantGate.Decimal

/-- A positive decimal: the digits `coefficient`, times ten to the power `exponent`. -/
structure Digits where
  coefficient : Nat
  exponent : Int
deriving Repr, DecidableEq

/-- A positive binary number `mantissa · 2 ^ exponent`; `edge` says that the gap below it is half
the gap above it. -/
structure Binary where
  mantissa : Nat
  exponent : Int
  edge : Bool
deriving Repr, DecidableEq

/-- Splits `base ^ e` into a factor of the numerator and a factor of the denominator. -/
def powerSplit (base : Nat) (e : Int) : Nat × Nat :=
  if 0 ≤ e then (Nat.pow base e.toNat, 1) else (1, Nat.pow base (-e).toNat)

/-- Four times the mantissa, in units of a quarter of the last binary place, with the ends of the
interval that rounds to the number. -/
def Binary.quarters (b : Binary) : Nat × Nat × Nat :=
  (4 * b.mantissa - (if b.edge then 1 else 2), 4 * b.mantissa, 4 * b.mantissa + 2)

def leadingPower (num den : Nat) : Int :=
  if den ≤ num then (Nat.toDigits 10 (num / den)).length - 1
  else
    let ratio := (den + num - 1) / num
    if ratio ≤ 1 then 0 else -((Nat.toDigits 10 (ratio - 1)).length : Int)

/-- The neighbour of the number on the grid of multiples of `10 ^ power` that rounds to it. -/
def Binary.onGrid? (b : Binary) (power : Int) : Option Digits :=
  let (low, mid, high) := b.quarters
  let (bin, unbin) := powerSplit 2 (b.exponent - 2)
  let (ten, unten) := powerSplit 10 power
  let scale := bin * unten
  let step := ten * unbin
  let below := mid * scale / step
  let within (c : Nat) : Bool :=
    let place := c * step
    if b.mantissa % 2 == 0 then low * scale ≤ place && place ≤ high * scale
    else low * scale < place && place < high * scale
  let gapBelow := mid * scale - below * step
  let gapAbove := (below + 1) * step - mid * scale
  match within below && below != 0, within (below + 1) with
  | true, true =>
    some ⟨if gapBelow < gapAbove || (gapBelow == gapAbove && below % 2 == 0) then below
      else below + 1, power⟩
  | true, false => some ⟨below, power⟩
  | false, true => some ⟨below + 1, power⟩
  | false, false => none

/-- Tries grids with one digit more each time; the last one is fine enough for every number. -/
def Binary.search (b : Binary) (top : Int) (digits : Nat) : Nat → Digits
  | 0 => ⟨b.mantissa, b.exponent⟩
  | tries + 1 =>
    match b.onGrid? (top - digits) with
    | some d => d
    | none => b.search top (digits + 1) tries

def Digits.strip (d : Digits) : Nat → Digits
  | 0 => d
  | n + 1 =>
    if d.coefficient % 10 == 0 && d.coefficient != 0 then
      Digits.strip ⟨d.coefficient / 10, d.exponent + 1⟩ n
    else d

def Binary.shortest (b : Binary) : Digits :=
  let (bin, unbin) := powerSplit 2 b.exponent
  (b.search (leadingPower (b.mantissa * bin) unbin) 0 18).strip 20

/-- The sign of a finite number and its size, where zero has no size. -/
def ofFloat (x : Float) : Bool × Option Binary :=
  let bits := x.toBits.toNat
  let negative := bits / 0x8000000000000000 == 1
  let field : Nat := bits / 0x10000000000000 % 0x800
  let fraction := bits % 0x10000000000000
  if field == 0 then
    (negative, if fraction == 0 then none else some ⟨fraction, -1074, false⟩)
  else (negative, some ⟨0x10000000000000 + fraction, (field : Int) - 1075, fraction == 0 && field != 1⟩)

/-- How a decimal is written: between which places of the point positional notation is used,
whether a whole number keeps `.0`, and what stands before a positive exponent. -/
structure Format where
  leastPoint : Int
  greatestPoint : Int
  keepPoint : Bool
  exponentSign : String
deriving Repr

def digitText (n : Nat) : String := String.ofList (Nat.toDigits 10 n)

def zeros (n : Nat) : String := String.ofList (List.replicate n '0')

/-- Writes a positive decimal. The point stands behind the first `point` digits. -/
def Format.write (f : Format) (d : Digits) : String :=
  let digits := Nat.toDigits 10 d.coefficient
  let point : Int := digits.length + d.exponent
  if f.leastPoint < point && point ≤ f.greatestPoint then
    if 0 ≤ d.exponent then
      String.ofList digits ++ zeros d.exponent.toNat ++ (if f.keepPoint then ".0" else "")
    else if 0 < point then
      String.ofList (digits.take point.toNat) ++ "." ++ String.ofList (digits.drop point.toNat)
    else "0." ++ zeros (-point).toNat ++ String.ofList digits
  else
    let power := point - 1
    let sign := if power < 0 then "-" else f.exponentSign
    let tail := digits.drop 1
    String.ofList (digits.take 1) ++ (if tail.isEmpty then "" else "." ++ String.ofList tail) ++
      "e" ++ sign ++ digitText power.natAbs

def Format.writeFloat (f : Format) (x : Float) : String :=
  let (negative, size) := ofFloat x
  let body := match size with
    | none => if f.keepPoint then "0.0" else "0"
    | some b => f.write b.shortest
  (if negative then "-" else "") ++ body

def plain : Format := ⟨-400, 400, false, ""⟩

/-- Positional from five places behind the point up to sixteen before it, always with a point. -/
def pointed : Format := ⟨-5, 16, true, "+"⟩

def plainText (x : Float) : String :=
  if x.isNaN then "NaN"
  else if x.isInf then (if x < 0 then "-inf" else "inf")
  else plain.writeFloat x

end TenantGate.Decimal
