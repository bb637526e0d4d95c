import TenantGate.Text.Encoding

/-!
Request targets: a path with an optional query, an absolute address, an authority alone, or `*`.
Only the path and the query are kept. A fragment is cut off.
-/
namespace TenantGate.Http

structure Uri where
  path : List UInt8
  query : Option (List UInt8)
deriving Repr, DecidableEq

namespace Uri

def isPathByte (b : UInt8) : Bool :=
  b == 0x21 || b == 0x22 || (0x24 ≤ b && b ≤ 0x3B) || b == 0x3D || (0x40 ≤ b && b ≤ 0x5F) ||
    (0x61 ≤ b && b ≤ 0x7E) || 0x80 ≤ b

def isQueryByte (b : UInt8) : Bool :=
  b == 0x21 || (0x24 ≤ b && b ≤ 0x3B) || b == 0x3D || (0x3F ≤ b && b ≤ 0x7E) || 0x80 ≤ b

def readQuery? : List UInt8 → Option (List UInt8)
  | [] => some []
  | b :: rest =>
    if b == 0x23 then some []
    else if isQueryByte b then (readQuery? rest).map (b :: ·)
    else none

def readPath? : List UInt8 → Option Uri
  | [] => some ⟨[], none⟩
  | b :: rest =>
    if b == 0x3F then (readQuery? rest).map fun query => ⟨[], some query⟩
    else if b == 0x23 then some ⟨[], none⟩
    else if isPathByte b then
      (readPath? rest).map fun uri => ⟨b :: uri.path, uri.query⟩
    else none

def isSchemeByte (b : UInt8) : Bool :=
  (0x30 ≤ b && b ≤ 0x39) || (0x41 ≤ b && b ≤ 0x5A) || (0x61 ≤ b && b ≤ 0x7A) || b == 0x2B ||
    b == 0x2D || b == 0x2E || b == 0x7E

def isAuthorityByte (b : UInt8) : Bool :=
  (0x30 ≤ b && b ≤ 0x3B) || (0x40 ≤ b && b ≤ 0x5B) || b == 0x5D || b == 0x5F ||
    (0x61 ≤ b && b ≤ 0x7A) || b == 0x21 || b == 0x24 || (0x26 ≤ b && b ≤ 0x2E) || b == 0x3D ||
    b == 0x7E

def greatestScheme : Nat := 64

def schemeLength? : List UInt8 → Option Nat
  | [] => none
  | b :: rest =>
    if b == 0x3A then
      match rest with
      | 0x2F :: 0x2F :: _ => some 0
      | _ => none
    else if isSchemeByte b then (schemeLength? rest).map (· + 1)
    else none

structure Authority where
  colons : Nat
  opened : Bool
  closed : Bool
  percent : Bool
  endsUser : Bool
deriving Repr

def Authority.start : Authority := ⟨0, false, false, false, false⟩

def Authority.step? (a : Authority) (b : UInt8) : Option Authority :=
  let a := { a with endsUser := false }
  if b == 0x3A then if 8 ≤ a.colons then none else some { a with colons := a.colons + 1 }
  else if b == 0x5B then if a.percent || a.opened then none else some { a with opened := true }
  else if b == 0x5D then
    if !a.opened || a.closed then none
    else some { a with closed := true, colons := 0, percent := false }
  else if b == 0x40 then some { a with endsUser := true, colons := 0, percent := false }
  else if b == 0x25 then some { a with percent := true }
  else if isAuthorityByte b then some a
  else none

def Authority.isComplete (a : Authority) : Bool :=
  a.opened == a.closed && a.colons ≤ 1 && !a.endsUser && !a.percent

/-- What stands behind a well-formed authority, and whether the authority has any byte. -/
def behindAuthority? (a : Authority) (some? : Bool) : List UInt8 → Option (Bool × List UInt8)
  | [] => if a.isComplete then some (some?, []) else none
  | b :: rest =>
    if b == 0x2F || b == 0x3F || b == 0x23 then
      if a.isComplete then some (some?, b :: rest) else none
    else
      match a.step? b with
      | some a => behindAuthority? a true rest
      | none => none

def greatestLength : Nat := 65534

def ofBytes? (bytes : List UInt8) : Option Uri :=
  if greatestLength < bytes.length then none
  else
    match bytes with
    | [] => none
    | [0x2A] => some ⟨[0x2A], none⟩
    | 0x2F :: rest => readPath? (0x2F :: rest)
    | _ =>
      match schemeLength? bytes with
      | some n =>
        if greatestScheme < n then none
        else
          match behindAuthority? .start false (bytes.drop (n + 3)) with
          | some (true, rest) =>
            (readPath? rest).map fun uri =>
              ⟨if uri.path.isEmpty then [0x2F] else uri.path, uri.query⟩
          | _ => none
      | none =>
        match behindAuthority? .start false bytes with
        | some (true, []) => some ⟨[], none⟩
        | _ => none

def ofText? (text : String) : Option Uri := ofBytes? (Utf8.encode text)

end Uri

end TenantGate.Http
