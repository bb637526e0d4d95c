import TenantGate.Call
import TenantGate.Json.Format
import TenantGate.Tenant.Tenancy

/-!
Identifiers: a prefix of two to twelve small letters, an underscore, and a token of ten to
sixty-four letters and digits, all ASCII. New ones take the token from a version-4 UUID.
-/
namespace TenantGate.Identifier

def greatestLength : Nat := 100

def isSmallLetter (c : Char) : Bool := 'a' ≤ c && c ≤ 'z'

def isTokenChar (c : Char) : Bool :=
  ('A' ≤ c && c ≤ 'Z') || ('a' ≤ c && c ≤ 'z') || ('0' ≤ c && c ≤ '9')

def matchesPattern (cs : List Char) : Bool :=
  let head := cs.takeWhile isSmallLetter
  match cs.dropWhile isSmallLetter with
  | '_' :: token =>
    2 ≤ head.length && head.length ≤ 12 && token.all isTokenChar && 10 ≤ token.length &&
      token.length ≤ 64
  | _ => false

def isValid (candidate : String) : Bool :=
  candidate.utf8ByteSize != 0 && candidate.utf8ByteSize ≤ greatestLength &&
    matchesPattern candidate.toList

def membershipPrefix : String := "mbr"

/-- A version-4 UUID from sixteen random bytes: the version and the variant are put over them. -/
def uuidBytes (random : List UInt8) : List UInt8 :=
  (random.take 16).mapIdx fun i b =>
    if i == 6 then (b &&& 0x0F) ||| 0x40
    else if i == 8 then (b &&& 0x3F) ||| 0x80
    else b

def hexChars (bytes : List UInt8) : List Char :=
  bytes.flatMap fun b => [Json.hexDigit (b.toNat / 16), Json.hexDigit (b.toNat % 16)]

def mint (kind : String) (random : List UInt8) : String :=
  kind ++ "_" ++ String.ofList (hexChars (uuidBytes random))

end TenantGate.Identifier

/-!
A directory in memory, which serves memberships and settings when the host runs without services
for them. It counts its lookups, those of cancelled requests included, and the counts wrap.
-/
namespace TenantGate

structure Directory where
  memberships : List Membership
  settings : List (String × Settings)
  membershipLookups : UInt64
  settingsLookups : UInt64
deriving Repr, DecidableEq

namespace Directory

def empty : Directory := ⟨[], [], 0, 0⟩

/-- Makes a user a member of an organization; the membership's identifier is minted from the given
random bytes. -/
def addMembership (d : Directory) (random : List UInt8) (userId organizationId : String)
    (isDefault : Bool) : Directory :=
  let id := Identifier.mint Identifier.membershipPrefix random
  { d with memberships := d.memberships ++ [⟨id, userId, organizationId, isDefault⟩] }

def setSettings (d : Directory) (organizationId : String) (settings : Settings) : Directory :=
  { d with settings := insertEntry organizationId settings d.settings }

def membershipsOf (d : Directory) (userId : String) : List Membership :=
  d.memberships.filter fun m => m.userId == userId

/-- Looks up the memberships of a user; an unknown user has none. -/
def lookupMemberships (userId : String) (cancelled : Bool) : Call Directory User := fun d =>
  let counted := { d with membershipLookups := d.membershipLookups + 1 }
  if cancelled then (.error .cancelled, counted)
  else (.ok ⟨userId, d.membershipsOf userId⟩, counted)

def lookupSettings (organizationId : String) (cancelled : Bool) : Call Directory Settings :=
  fun d =>
    let counted := { d with settingsLookups := d.settingsLookups + 1 }
    if cancelled then (.error .cancelled, counted)
    else
      match d.settings.lookup organizationId with
      | some settings => (.ok settings, counted)
      | none => (.error (.notFound ("organization '" ++ organizationId ++ "'")), counted)

end Directory

end TenantGate
