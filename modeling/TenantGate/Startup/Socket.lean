import TenantGate.Net.Address

/-!
Addresses to listen on. A host is a dotted address, or an address of the sixth version in brackets
with an optional number of its zone; names are not looked up.
-/
namespace TenantGate.Startup

open Net

inductive Endpoint where
  | dotted (octets : List Nat)
  | bracketed (groups : List Nat) (zone : Nat)
deriving Repr, DecidableEq

structure Socket where
  endpoint : Endpoint
  port : UInt16
deriving Repr, DecidableEq

namespace Endpoint

def bracketed? (cs : List Char) : Option Endpoint :=
  let address := cs.takeWhile (· != '%')
  let groups? := ipv6? address
  match cs.drop address.length with
  | [] => groups?.map fun groups => .bracketed groups 0
  | _ :: zone =>
    match groups?, Decimal.natural? zone with
    | some groups, some zone => if zone < 0x100000000 then some (.bracketed groups zone) else none
    | _, _ => none

def ofHost? (host : String) : Option Endpoint :=
  match host.toList with
  | '[' :: cs =>
    match cs.reverse with
    | ']' :: inner => bracketed? inner.reverse
    | _ => none
  | cs => (dotted? cs).map .dotted

/-- The text of eight groups; an address of the fourth version inside keeps its points. -/
def groupsText (groups : List Nat) : String :=
  match groups with
  | [0, 0, 0, 0, 0, 0xFFFF, a, b] =>
    "::ffff:" ++ dottedText [a / 256, a % 256, b / 256, b % 256]
  | _ => ipv6Text groups

def text : Endpoint → String
  | .dotted octets => dottedText octets
  | .bracketed groups zone =>
    "[" ++ groupsText groups ++ (if zone == 0 then "" else "%" ++ toString zone) ++ "]"

/-- Whether a dotted address can be listened on by a machine without a name of its own: one of the
machine itself, the one that stands for all, or one for many listeners. -/
def isOwnDotted : List Nat → Bool
  | [a, b, c, d] =>
    a == 127 || (224 ≤ a && a < 240) || [a, b, c, d] == [0, 0, 0, 0] ||
      [a, b, c, d] == [255, 255, 255, 255]
  | _ => false

def isOwn : Endpoint → Bool
  | .dotted octets => isOwnDotted octets
  | .bracketed [0, 0, 0, 0, 0, 0xFFFF, a, b] _ => isOwnDotted [a / 256, a % 256, b / 256, b % 256]
  | .bracketed groups _ => groups.dropLast.all (· == 0) && (groups.getLast?.getD 0) ≤ 1

end Endpoint

namespace Socket

def ofHost? (host : String) (port : UInt16) : Option Socket :=
  (Endpoint.ofHost? host).map fun endpoint => ⟨endpoint, port⟩

def fault? (s : Socket) : Option String :=
  if s.endpoint.isOwn then none else some "Cannot assign requested address (os error 99)"

def text (s : Socket) : String := s.endpoint.text ++ ":" ++ toString s.port.toNat

end Socket

end TenantGate.Startup
