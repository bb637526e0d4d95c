import TenantGate.Net.Address
import TenantGate.Text.Printable

/-!
The ASCII form of host names with other letters. The letters beyond ASCII are put in one after the
other in the order of their numbers; how far the next one lies from the last one is written as a
number of variable length whose digits adapt to what came before.
-/
namespace TenantGate.Net.Punycode

def digitChar (d : Nat) : Char :=
  if d < 26 then Char.ofNat (0x61 + d) else Char.ofNat (0x30 + d - 26)

def threshold (place bias : Nat) : Nat :=
  if place ≤ bias then 1 else if bias + 26 ≤ place then 26 else place - bias

theorem threshold_pos (place bias : Nat) : 1 ≤ threshold place bias := by
  unfold threshold
  split
  · omega
  · split <;> omega

def distanceDigits (bias place distance : Nat) : List Char :=
  let t := threshold place bias
  if distance < t then [digitChar distance]
  else
    digitChar (t + (distance - t) % (36 - t)) ::
      distanceDigits bias (place + 36) ((distance - t) / (36 - t))
termination_by distance
decreasing_by
  have := threshold_pos place bias
  have := Nat.div_le_self (distance - threshold place bias) (36 - threshold place bias)
  omega

def shrink (delta place : Nat) : Nat × Nat :=
  if 455 < delta then shrink (delta / 35) (place + 36) else (delta, place)
termination_by delta
decreasing_by omega

def adapt (delta points : Nat) (first : Bool) : Nat :=
  let halved := if first then delta / 700 else delta / 2
  let (rest, place) := shrink (halved + halved / points) 0
  place + 36 * rest / (rest + 38)

structure Progress where
  written : List Char
  delta : Nat
  bias : Nat
  placed : Nat

def scan (basic letter : Nat) (p : Progress) (c : Char) : Progress :=
  if c.toNat < letter then { p with delta := p.delta + 1 }
  else if c.toNat == letter then
    ⟨p.written ++ distanceDigits p.bias 36 p.delta, 0,
      adapt p.delta (p.placed + 1) (p.placed == basic), p.placed + 1⟩
  else p

def putLetters (label : List Char) (basic : Nat) : List Nat → Nat → Progress → Progress
  | [], _, p => p
  | letter :: letters, least, p =>
    let p := { p with delta := p.delta + (letter - least) * (p.placed + 1) }
    let p := label.foldl (scan basic letter) p
    putLetters label basic letters (letter + 1) { p with delta := p.delta + 1 }

def lettersOf (label : List Char) : List Nat :=
  (((label.map Char.toNat).filter (0x80 ≤ ·)).mergeSort).eraseDups

/-- A label without letters beyond ASCII stays; another one gets its ASCII form. -/
def encodeLabel (label : List Char) : List Char :=
  let basic := label.filter fun c => c.toNat < 0x80
  if basic.length == label.length then label
  else
    "xn--".toList ++ basic ++ (if basic.isEmpty then [] else ['-']) ++
      (putLetters label basic.length (lettersOf label) 128 ⟨[], 0, 72, basic.length⟩).written

def digitValue? (c : Char) : Option Nat :=
  if 'a' ≤ c && c ≤ 'z' then some (c.toNat - 0x61)
  else if 'A' ≤ c && c ≤ 'Z' then some (c.toNat - 0x41)
  else if '0' ≤ c && c ≤ '9' then some (c.toNat - 0x30 + 26)
  else none

def takeDistance (bias place weight value : Nat) : List Char → Option (Nat × List Char)
  | [] => none
  | c :: cs =>
    match digitValue? c with
    | none => none
    | some d =>
      let t := threshold place bias
      if d < t then some (value + d * weight, cs)
      else takeDistance bias (place + 36) (weight * (36 - t)) (value + d * weight) cs

def letter? (n : Nat) : Option Char :=
  if n < 0xD800 || (0xDFFF < n && n < 0x110000) then some (Char.ofNat n) else none

/-- Puts the letters that the distances stand for into what is written. The next one has at least
the number `least` and does not stand before the place `start`. -/
def takeLetters (written : List Char) (least start bias : Nat) (first : Bool) :
    Nat → List Char → Option (List Char)
  | _, [] => some written
  | 0, _ => none
  | fuel + 1, cs => do
    let (distance, rest) ← takeDistance bias 36 1 0 cs
    let points := written.length + 1
    let least := least + (start + distance) / points
    let place := (start + distance) % points
    let letter ← letter? least
    takeLetters (written.take place ++ letter :: written.drop place) least (place + 1)
      (adapt distance points first) false fuel rest

def decodeLabel? (text : List Char) : Option (List Char) :=
  let digits := (text.reverse.takeWhile (· != '-')).reverse
  let basic := text.take (text.length - digits.length - 1)
  if basic.any fun c => 0x80 ≤ c.toNat then none
  else takeLetters basic 128 0 72 true digits.length digits

end TenantGate.Net.Punycode

/-!
Host names with letters of any script. Capital and wide letters stand for the small ones, some
characters are passed over, and what cannot be shown has no place in a name. The letters with
capitals that are known here are those of the Latin, Greek, Cyrillic and Armenian scripts.

This is less than the mapping and the checks of UTS 46. Characters are not brought into normal form
and compatibility characters other than wide letters stay as they are; the rules for names that run
from right to left and for joiners in their context are not checked; and any character that can be
shown counts as valid. So a name beyond ASCII may be taken that is refused there, or be read as
another one. Names in ASCII that start no label with `xn--` are read alike.
-/
namespace TenantGate.Net.HostName

/-- The small letters of a range of capitals, as far behind them as the last number says. -/
def capitalRanges : List (Nat × Nat × Nat) := [
  (0x41, 0x5A, 0x20), (0xC0, 0xD6, 0x20), (0xD8, 0xDE, 0x20), (0x391, 0x3A1, 0x20),
  (0x3A3, 0x3AB, 0x20), (0x400, 0x40F, 0x50), (0x410, 0x42F, 0x20), (0x531, 0x556, 0x30)]

def pairedRanges : List (Nat × Nat) := [
  (0x100, 0x12F), (0x132, 0x137), (0x14A, 0x177), (0x1DE, 0x1EF), (0x1F8, 0x21F), (0x222, 0x233),
  (0x460, 0x481), (0x48A, 0x4BF), (0x4D0, 0x52F), (0x1E00, 0x1E95), (0x1EA0, 0x1EFF)]

/-- The ranges in which each capital has an odd number and its small letter the next one. -/
def oddPairedRanges : List (Nat × Nat) := [
  (0x139, 0x148), (0x179, 0x17E), (0x1CD, 0x1DC), (0x4C1, 0x4CE)]

def smallNumber (n : Nat) : Nat :=
  match capitalRanges.find? fun (low, high, _) => low ≤ n && n ≤ high with
  | some (_, _, distance) => n + distance
  | none =>
    if Text.inRanges n pairedRanges && n % 2 == 0 then n + 1
    else if Text.inRanges n oddPairedRanges && n % 2 == 1 then n + 1
    else n

/-- The characters that are passed over: hyphens and joints that do not show. -/
def isPassedOver (n : Nat) : Bool :=
  n == 0xAD || n == 0x34F || (0x180B ≤ n && n ≤ 0x180F) || n == 0x200B || n == 0x2060 ||
    n == 0x2064 || (0xFE00 ≤ n && n ≤ 0xFE0F) || n == 0xFEFF

def meaning (c : Char) : List Char :=
  let n := c.toNat
  if isPassedOver n then []
  else if n == 0x3002 || n == 0xFF61 then ['.']
  else if 0xFF01 ≤ n && n ≤ 0xFF5E then [Char.ofNat (smallNumber (n - 0xFEE0))]
  else [Char.ofNat (smallNumber n)]

def isAllowed (c : Char) : Bool := c.toNat < 0x80 || Text.isPrintable c || Text.isExtender c

/-- Whether a label may stand in a name: none starts with a mark that belongs to a letter. -/
def isLabel (label : List Char) : Bool :=
  label.all isAllowed && !(label.head?.map Text.isExtender).getD false

def asciiMark : List Char := "xn--".toList

/-- The ASCII form of a label. One that is given in this form must be the form of a label. -/
def asciiLabel? (label : List Char) : Option (List Char) :=
  if asciiMark.isPrefixOf label then
    match Punycode.decodeLabel? (label.drop asciiMark.length) with
    | some decoded =>
      if isLabel decoded && decoded.any (fun c => 0x80 ≤ c.toNat) &&
          decoded.flatMap meaning == decoded && Punycode.encodeLabel decoded == label then
        some label
      else none
    | none => none
  else if isLabel label then some (Punycode.encodeLabel label)
  else none

def ascii? (name : List Char) : Option (List Char) :=
  ((splitChars '.' (name.flatMap meaning)).mapM asciiLabel?).map (List.intercalate ['.'])

end TenantGate.Net.HostName
