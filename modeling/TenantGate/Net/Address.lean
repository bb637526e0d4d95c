import TenantGate.Decimal.Reading
import TenantGate.Text.Printable

/-!
Internet addresses. An address of the sixth version is up to eight groups of hex digits, the last
two of which may be written as an address of the fourth version; `::` stands for one or more
groups of zero.
-/
namespace TenantGate.Net

def splitChars (separator : Char) : List Char → List (List Char)
  | [] => [[]]
  | c :: cs =>
    if c == separator then [] :: splitChars separator cs
    else
      match splitChars separator cs with
      | piece :: pieces => (c :: piece) :: pieces
      | [] => [[c]]

def octet? (cs : List Char) : Option Nat :=
  if 3 < cs.length || (1 < cs.length && cs.head? == some '0') then none
  else (Decimal.natural? cs).bind fun n => if n ≤ 255 then some n else none

def dotted? (cs : List Char) : Option (List Nat) :=
  let parts := splitChars '.' cs
  if parts.length == 4 then parts.mapM octet? else none

def hexDigit? (c : Char) : Option Nat :=
  if '0' ≤ c && c ≤ '9' then some (c.toNat - 0x30)
  else if 'a' ≤ c && c ≤ 'f' then some (c.toNat - 0x57)
  else if 'A' ≤ c && c ≤ 'F' then some (c.toNat - 0x37)
  else none

def group? (cs : List Char) : Option Nat :=
  if cs.isEmpty || 4 < cs.length then none
  else (cs.mapM hexDigit?).map fun ds => ds.foldl (fun n d => n * 16 + d) 0

/-- The groups of some pieces; only the last piece of all may be a dotted address. -/
def groups? : List (List Char) → Option (List Nat)
  | [] => some []
  | [piece] =>
    match group? piece with
    | some g => some [g]
    | none =>
      match dotted? piece with
      | some [a, b, c, d] => some [a * 256 + b, c * 256 + d]
      | _ => none
  | piece :: pieces => do
    let g ← group? piece
    let gs ← groups? pieces
    return g :: gs

def cutDouble : List Char → List Char × Option (List Char)
  | [] => ([], none)
  | ':' :: ':' :: rest => ([], some rest)
  | c :: cs =>
    let (before, behind) := cutDouble cs
    (c :: before, behind)

def side? (cs : List Char) : Option (List Nat) :=
  if cs.isEmpty then some [] else groups? (splitChars ':' cs)

def hasDots (cs : List Char) : Bool := cs.contains '.'

def ipv6? (cs : List Char) : Option (List Nat) :=
  match cutDouble cs with
  | (whole, none) =>
    (groups? (splitChars ':' whole)).bind fun gs => if gs.length == 8 then some gs else none
  | (before, some behind) =>
    if hasDots before then none
    else do
      let head ← side? before
      let tail ← side? behind
      if head.length + tail.length ≤ 7 then
        return head ++ List.replicate (8 - head.length - tail.length) 0 ++ tail
      else none

def zeroRun : List Nat → Nat
  | 0 :: gs => zeroRun gs + 1
  | _ => 0

def longestRun (start : Nat) : List Nat → Nat × Nat
  | [] => (start, 0)
  | g :: gs =>
    let here := zeroRun (g :: gs)
    let (place, length) := longestRun (start + 1) gs
    if length ≤ here then (start, here) else (place, length)

def groupText (gs : List Nat) : String := String.intercalate ":" (gs.map Text.lowerHex)

/-- An address of the sixth version, with the longest run of two or more zeros shortened. -/
def ipv6Text (gs : List Nat) : String :=
  let (place, length) := longestRun 0 gs
  if length < 2 then groupText gs
  else groupText (gs.take place) ++ "::" ++ groupText (gs.drop (place + length))

def dottedText (octets : List Nat) : String := String.intercalate "." (octets.map toString)

def octetsOf (n : Nat) : List Nat :=
  [n / 0x1000000 % 0x100, n / 0x10000 % 0x100, n / 0x100 % 0x100, n % 0x100]

/-- A part of a number address: decimal, octal after `0` or hexadecimal after `0x`. The outer
option says whether it is a number at all, the inner one whether it fits 32 bits. -/
def number? (cs : List Char) : Option (Option Nat) :=
  let fit (n : Nat) : Option Nat := if n < 0x100000000 then some n else none
  let digits (base : Nat) (cs : List Char) : Option (Option Nat) :=
    if cs.isEmpty then some (some 0)
    else
      (cs.mapM fun c => (hexDigit? c).bind fun d => if d < base then some d else none).map
        fun ds => fit (ds.foldl (fun n d => n * base + d) 0)
  match cs with
  | [] => none
  | '0' :: 'x' :: more => digits 16 more
  | '0' :: 'X' :: more => digits 16 more
  | '0' :: d :: more => digits 8 (d :: more)
  | _ => digits 10 cs

/-- Whether the last part of a host name is a number, so that the whole must be an address. -/
def endsInNumber (cs : List Char) : Bool :=
  let parts := (splitChars '.' cs).reverse
  let last? := match parts with
    | [] :: last :: _ => some last
    | [[]] => none
    | last :: _ => some last
    | [] => none
  match last? with
  | some last => (!last.isEmpty && last.all Char.isDigit) || (number? last).isSome
  | none => false

def numberAddress? (cs : List Char) : Option Nat := do
  let parts := splitChars '.' cs
  let parts := if parts.getLast? == some [] then parts.dropLast else parts
  if 4 < parts.length then none
  else
    let numbers ← parts.mapM fun p => (number? p).bind id
    let last ← numbers.getLast?
    let leading := numbers.dropLast
    if Nat.pow 256 (4 - leading.length) ≤ last || leading.any fun n => 255 < n then none
    else
      return last + (leading.mapIdx fun i n => n * Nat.pow 256 (3 - i)).foldl (· + ·) 0

end TenantGate.Net
