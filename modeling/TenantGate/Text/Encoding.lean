/-!
UTF-8 read one character at a time. `next` either takes a well-formed character off the front or
drops the longest run of bytes that could have begun one; the strict reader stops at the first
such run and the tolerant reader puts U+FFFD in its place.
-/
namespace TenantGate.Utf8

def encode (s : String) : List UInt8 := s.toUTF8.toList

def isTail (b : UInt8) : Bool := 0x80 ≤ b && b ≤ 0xBF

/-- What a first byte above 0x7F announces: its own bits, how many bytes follow, and the range of
the first of them. The ranges leave out overlong forms, surrogates and values past U+10FFFF. -/
def lead? (b : UInt8) : Option (Nat × Nat × UInt8 × UInt8) :=
  if b < 0xC2 then none
  else if b ≤ 0xDF then some (b.toNat - 0xC0, 1, 0x80, 0xBF)
  else if b == 0xE0 then some (0, 2, 0xA0, 0xBF)
  else if b == 0xED then some (0xD, 2, 0x80, 0x9F)
  else if b ≤ 0xEF then some (b.toNat - 0xE0, 2, 0x80, 0xBF)
  else if b == 0xF0 then some (0, 3, 0x90, 0xBF)
  else if b ≤ 0xF3 then some (b.toNat - 0xF0, 3, 0x80, 0xBF)
  else if b == 0xF4 then some (4, 3, 0x80, 0x8F)
  else none

/-- Takes the remaining tail bytes of a character whose bits so far are `bits`. -/
def takeTails (bits : Nat) : Nat → List UInt8 → Option Char × List UInt8
  | 0, rest => (some (Char.ofNat bits), rest)
  | _ + 1, [] => (none, [])
  | n + 1, b :: rest =>
    if isTail b then takeTails (bits * 64 + (b.toNat - 0x80)) n rest else (none, b :: rest)

theorem takeTails_length (bits n : Nat) (bytes : List UInt8) :
    (takeTails bits n bytes).2.length ≤ bytes.length := by
  induction n generalizing bits bytes with
  | zero => simp [takeTails]
  | succ n ih =>
    cases bytes with
    | nil => simp [takeTails]
    | cons b rest =>
      simp only [takeTails]
      split
      · exact Nat.le_succ_of_le (ih _ _)
      · exact Nat.le_refl _

/-- The character that starts with byte `b`, or nothing when none does, and the bytes behind it. -/
def next (b : UInt8) (rest : List UInt8) : Option Char × List UInt8 :=
  if b < 0x80 then (some (Char.ofNat b.toNat), rest)
  else
    match lead? b, rest with
    | some (bits, n, low, high), t :: more =>
      if low ≤ t && t ≤ high then takeTails (bits * 64 + (t.toNat - 0x80)) (n - 1) more
      else (none, rest)
    | _, _ => (none, rest)

theorem next_length (b : UInt8) (rest : List UInt8) : (next b rest).2.length ≤ rest.length := by
  unfold next
  split
  · exact Nat.le_refl _
  · split
    · split
      · exact Nat.le_succ_of_le (takeTails_length _ _ _)
      · exact Nat.le_refl _
    · exact Nat.le_refl _

def decodeAfter? (read : String) : List UInt8 → Option String
  | [] => some read
  | b :: rest =>
    match _h : next b rest with
    | (some c, more) => decodeAfter? (read.push c) more
    | (none, _) => none
termination_by bytes => bytes.length
decreasing_by
  have := next_length b rest
  simp only [_h] at this
  simp only [List.length_cons]; omega

def decode? (bytes : List UInt8) : Option String := decodeAfter? "" bytes

/-- The text after `read`, with U+FFFD for each run of bytes that is no character. -/
def decodeLossyAfter (read : String) : List UInt8 → String
  | [] => read
  | b :: rest =>
    match _h : next b rest with
    | (c?, more) => decodeLossyAfter (read.push (c?.getD '\uFFFD')) more
termination_by bytes => bytes.length
decreasing_by
  have := next_length b rest
  simp only [_h] at this
  simp only [List.length_cons]; omega

def decodeLossy (bytes : List UInt8) : String := decodeLossyAfter "" bytes

end TenantGate.Utf8

/-!
Percent escapes. Decoding works on bytes and leaves a percent sign alone that no two hex digits
follow; encoding escapes the bytes of a set and passes the others.
-/
namespace TenantGate.Text

def hexValue? (b : UInt8) : Option UInt8 :=
  if 0x30 ≤ b && b ≤ 0x39 then some (b - 0x30)
  else if 0x41 ≤ b && b ≤ 0x46 then some (b - 0x37)
  else if 0x61 ≤ b && b ≤ 0x66 then some (b - 0x57)
  else none

def percentDecode : List UInt8 → List UInt8
  | [] => []
  | 0x25 :: h :: l :: rest =>
    match hexValue? h, hexValue? l with
    | some high, some low => (high * 16 + low) :: percentDecode rest
    | _, _ => 0x25 :: percentDecode (h :: l :: rest)
  | b :: rest => b :: percentDecode rest

def upperHexDigit (n : UInt8) : Char :=
  if n < 10 then Char.ofNat (0x30 + n.toNat) else Char.ofNat (0x37 + n.toNat)

def escapeByte (b : UInt8) : List Char :=
  ['%', upperHexDigit (b / 16), upperHexDigit (b % 16)]

/-- The ASCII text of some bytes, where the bytes of the set and those beyond ASCII are escaped. -/
def percentEncode (escaped : UInt8 → Bool) (bytes : List UInt8) : List Char :=
  bytes.flatMap fun b => if escaped b || 0x80 ≤ b then escapeByte b else [Char.ofNat b.toNat]

/-!
Form-encoded pairs, as a query string holds them. A plus sign stands for a space, which is settled
before the escapes are decoded, so an escaped plus sign stays one. Names and values are read
tolerantly: bytes that are no UTF-8 become U+FFFD.
-/

def splitOnByte (separator : UInt8) : List UInt8 → List (List UInt8)
  | [] => [[]]
  | b :: rest =>
    if b == separator then [] :: splitOnByte separator rest
    else
      match splitOnByte separator rest with
      | piece :: pieces => (b :: piece) :: pieces
      | [] => [[b]]

def cutAtByte (separator : UInt8) : List UInt8 → List UInt8 × List UInt8
  | [] => ([], [])
  | b :: rest =>
    if b == separator then ([], rest)
    else
      let (before, behind) := cutAtByte separator rest
      (b :: before, behind)

def formBytes (bytes : List UInt8) : List UInt8 :=
  percentDecode (bytes.map fun b => if b == 0x2B then 0x20 else b)

def formText (bytes : List UInt8) : String := Utf8.decodeLossy (formBytes bytes)

def formPair (piece : List UInt8) : String × String :=
  let (name, value) := cutAtByte 0x3D piece
  (formText name, formText value)

/-- The pairs of a query in their order; empty pieces are no pairs. -/
def formPairs (query : List UInt8) : List (String × String) :=
  ((splitOnByte 0x26 query).filter fun piece => !piece.isEmpty).map formPair

end TenantGate.Text
