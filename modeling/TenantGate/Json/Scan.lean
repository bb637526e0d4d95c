import TenantGate.Json.Cursor
import TenantGate.Text.Encoding

/-!
Strings and numbers. A string must be well-formed UTF-8 and its surrogate escapes must come in
pairs. A number without point, exponent or overflow is an integer; every other number is a float,
computed from the leading digits that fit 64 bits and a power of ten, as one product or quotient.
-/
namespace TenantGate.Json

def hexDigit? (b : UInt8) : Option Nat :=
  if isDigit b then some (digitOf b)
  else if 0x61 ≤ b && b ≤ 0x66 then some (b.toNat - 0x61 + 10)
  else if 0x41 ≤ b && b ≤ 0x46 then some (b.toNat - 0x41 + 10)
  else none

def hex4? (a b c d : UInt8) : Option Nat := do
  let w ← hexDigit? a
  let x ← hexDigit? b
  let y ← hexDigit? c
  let z ← hexDigit? d
  return ((w * 16 + x) * 16 + y) * 16 + z

structure Escape (input : List UInt8) where
  char : Char
  place : Place
  rest : List UInt8
  shorter : rest.length ≤ input.length

theorem length_le_cons (b : UInt8) (rest : List UInt8) : rest.length ≤ (b :: rest).length := by
  simp only [List.length_cons]; omega

theorem length_le_of_behind {rest more : List UInt8} (shorter : rest.length ≤ more.length)
    (b w x y z : UInt8) : rest.length ≤ (b :: w :: x :: y :: z :: more).length := by
  simp only [List.length_cons]; omega

/-- The second half of a surrogate pair whose first half is `leading`. -/
def readTrailing (leading : Nat) (place : Place) (input : List UInt8) :
    Except Fault (Escape input) :=
  match input with
  | [] => .error ⟨.endOfString, place, []⟩
  | [b] =>
    if b == 0x5C then .error ⟨.endOfString, place.after b, []⟩
    else .error ⟨.unfinishedSurrogate, place.after b, []⟩
  | b :: u :: more =>
    if b != 0x5C then .error ⟨.unfinishedSurrogate, place.after b, []⟩
    else
      let place := (place.after b).after u
      if u != 0x75 then .error ⟨.unfinishedSurrogate, place, []⟩
      else
        match more with
        | w :: x :: y :: z :: rest =>
          let place := place.afterAll [w, x, y, z]
          match hex4? w x y z with
          | none => .error ⟨.invalidEscape, place, []⟩
          | some trailing =>
            if trailing < 0xDC00 || 0xDFFF < trailing then .error ⟨.loneSurrogate, place, []⟩
            else
              let n := (leading - 0xD800) * 0x400 + (trailing - 0xDC00) + 0x10000
              .ok ⟨Char.ofNat n, place, rest, by simp only [List.length_cons]; omega⟩
        | _ => .error ⟨.endOfString, place.afterAll more, []⟩

def readEscape (place : Place) (input : List UInt8) : Except Fault (Escape input) :=
  match input with
  | [] => .error ⟨.endOfString, place, []⟩
  | b :: rest =>
    let place := place.after b
    let plain (c : Char) : Except Fault (Escape (b :: rest)) :=
      .ok ⟨c, place, rest, length_le_cons b rest⟩
    if b == 0x22 then plain '"'
    else if b == 0x5C then plain '\\'
    else if b == 0x2F then plain '/'
    else if b == 0x62 then plain '\x08'
    else if b == 0x66 then plain '\x0c'
    else if b == 0x6E then plain '\n'
    else if b == 0x72 then plain '\r'
    else if b == 0x74 then plain '\t'
    else if b == 0x75 then
      match rest with
      | w :: x :: y :: z :: more =>
        let place := place.afterAll [w, x, y, z]
        match hex4? w x y z with
        | none => .error ⟨.invalidEscape, place, []⟩
        | some n =>
          if 0xDC00 ≤ n && n ≤ 0xDFFF then .error ⟨.loneSurrogate, place, []⟩
          else if 0xD800 ≤ n && n ≤ 0xDBFF then
            match readTrailing n place more with
            | .error f => .error f
            | .ok e =>
              .ok ⟨e.char, e.place, e.rest, length_le_of_behind e.shorter b w x y z⟩
          else
            .ok ⟨Char.ofNat n, place, more, length_le_of_behind (Nat.le_refl _) b w x y z⟩
      | _ => .error ⟨.endOfString, place.afterAll rest, []⟩
    else .error ⟨.invalidEscape, place, []⟩

def readText (read : String) (place : Place) : List UInt8 → Except Fault (String × Cursor)
  | [] => .error ⟨.endOfString, place, []⟩
  | b :: rest =>
    if b == 0x22 then .ok (read, ⟨rest, place.after b⟩)
    else if b == 0x5C then
      match readEscape (place.after b) rest with
      | .error f => .error f
      | .ok e => readText (read.push e.char) e.place e.rest
    else if b < 0x20 then .error ⟨.controlCharacter, place.after b, []⟩
    else
      match _h : Utf8.next b rest with
      | (some c, more) => readText (read.push c) ⟨place.line, place.column + c.utf8Size⟩ more
      | (none, _) => .error ⟨.invalidUnicode, place.after b, []⟩
termination_by bytes => bytes.length
decreasing_by
  · have := e.shorter
    simp only [List.length_cons]; omega
  · have := Utf8.next_length b rest
    simp only [_h] at this
    simp only [List.length_cons]; omega

inductive Number where
  | natural (value : Nat)
  | negative (value : Int)
  | float (value : Float)
deriving Repr

def Number.found : Number → Found
  | .natural value => .integer value
  | .negative value => .integer value
  | .float value => .float value

/-- The power of ten as a float; up to 308 it is the nearest one. -/
def tenTo (n : Nat) : Float := Float.ofScientific 1 false n

/-- `significand · 10 ^ exponent`, scaled down in steps while the exponent is below the range of
floats. -/
def scaleDown (f : Float) (exponent : Int) : Nat → Float
  | 0 => f
  | steps + 1 =>
    if -308 ≤ exponent || f == 0 then
      if -308 ≤ exponent then f / tenTo exponent.natAbs else f
    else scaleDown (f / tenTo 308) (exponent + 308) steps

def floatOfParts? (positive : Bool) (significand : Nat) (exponent : Int) : Option Float :=
  let f := (UInt64.ofNat significand).toFloat
  let signed (x : Float) : Float := if positive then x else -x
  if 0 ≤ exponent then
    if exponent ≤ 308 then
      let x := f * tenTo exponent.toNat
      if x.isInf then none else some (signed x)
    else if significand == 0 then some (signed f)
    else none
  else some (signed (scaleDown f exponent 8))

def floatOfParts (c : Cursor) (positive : Bool) (significand : Nat) (exponent : Int) :
    Except Fault (Number × Cursor) :=
  match floatOfParts? positive significand exponent with
  | some x => .ok (.float x, c)
  | none => c.fail .numberOutOfRange

/-- The digits in front, as a value that stops growing at `limit`: the value, how many digits it
took, how many it left out, and what follows. -/
def takeDigits (limit value taken dropped : Nat) (place : Place) :
    List UInt8 → Nat × Nat × Nat × Cursor
  | [] => (value, taken, dropped, ⟨[], place⟩)
  | b :: rest =>
    if isDigit b then
      let grown := value * 10 + digitOf b
      if dropped == 0 && grown ≤ limit then
        takeDigits limit grown (taken + 1) 0 (place.after b) rest
      else takeDigits limit value taken (dropped + 1) (place.after b) rest
    else (value, taken, dropped, ⟨b :: rest, place⟩)

/-- The largest significand and the largest exponent that are kept exactly. -/
def significandLimit : Nat := 0xFFFFFFFFFFFFFFFF

def exponentLimit : Nat := 0x7FFFFFFF

def readExponent (positive : Bool) (significand : Nat) (start : Int) (c : Cursor) :
    Except Fault (Number × Cursor) :=
  let c : Cursor := ⟨c.rest.drop 1, c.ahead⟩
  let (upward, c) : Bool × Cursor := match c.rest with
    | b :: rest =>
      if b == 0x2B then (true, ⟨rest, c.ahead⟩)
      else if b == 0x2D then (false, ⟨rest, c.ahead⟩)
      else (true, c)
    | [] => (true, c)
  match c.rest with
  | [] => c.fail .endOfValue
  | b :: _ =>
    if isDigit b then
      let (e, taken, dropped, after) := takeDigits exponentLimit 0 0 0 c.place c.rest
      if dropped == 0 then
        floatOfParts after positive significand (if upward then start + e else start - e)
      else if significand != 0 && upward then
        .error ⟨.numberOutOfRange, ⟨c.place.line, c.place.column + taken + 1⟩, []⟩
      else .ok (.float (if positive then 0.0 else -0.0), after)
    else c.blame .invalidNumber

def readFraction (positive : Bool) (significand : Nat) (start : Int) (c : Cursor) :
    Except Fault (Number × Cursor) :=
  let c : Cursor := ⟨c.rest.drop 1, c.ahead⟩
  let (value, taken, dropped, after) := takeDigits significandLimit significand 0 0 c.place c.rest
  if taken + dropped == 0 then
    match c.rest with
    | [] => c.blame .endOfValue
    | _ :: _ => c.blame .invalidNumber
  else
    match after.rest with
    | b :: _ =>
      if b == 0x65 || b == 0x45 then readExponent positive value (start - taken) after
      else floatOfParts after positive value (start - taken)
    | [] => floatOfParts after positive value (start - taken)

/-- What follows the whole part of a number that left out `dropped` digits. -/
def readTail (positive : Bool) (significand dropped : Nat) (c : Cursor) :
    Except Fault (Number × Cursor) :=
  match c.rest with
  | b :: _ =>
    if b == 0x2E then readFraction positive significand dropped c
    else if b == 0x65 || b == 0x45 then readExponent positive significand dropped c
    else whole
  | [] => whole
where
  whole : Except Fault (Number × Cursor) :=
    if dropped != 0 then floatOfParts c positive significand dropped
    else if positive then .ok (.natural significand, c)
    else if significand == 0 || 0x8000000000000000 < significand then
      .ok (.float (-(UInt64.ofNat significand).toFloat), c)
    else .ok (.negative (-(significand : Int)), c)

def readUnsigned (positive : Bool) (c : Cursor) : Except Fault (Number × Cursor) :=
  match c.rest with
  | [] => c.fail .endOfValue
  | b :: rest =>
    if b == 0x30 then
      let c : Cursor := ⟨rest, c.ahead⟩
      match rest with
      | d :: _ => if isDigit d then c.blame .invalidNumber else readTail positive 0 0 c
      | [] => readTail positive 0 0 c
    else if isDigit b then
      let (value, _, dropped, after) := takeDigits significandLimit 0 0 0 c.place c.rest
      readTail positive value dropped after
    else c.blame .invalidNumber

def readNumber (c : Cursor) : Except Fault (Number × Cursor) :=
  match c.rest with
  | 0x2D :: rest => readUnsigned false ⟨rest, c.ahead⟩
  | _ => readUnsigned true c

end TenantGate.Json
