import TenantGate.Http.Message
import TenantGate.Text.Printable

/-!
Negotiation of the content coding. Of the codings a client accepts only `gzip`, also called
`x-gzip`, and `identity` are looked at; each counts with the best weight it is given, and weight
zero does not count at all.
-/
namespace TenantGate.Http

inductive Coding where
  | identity
  | gzip
deriving Repr, DecidableEq

def Coding.ofName? (name : String) : Option Coding :=
  let name := name.toLower
  if name == "gzip" || name == "x-gzip" then some .gzip
  else if name == "identity" then some .identity
  else none

def readFraction? (value factor : Nat) : List Char → Option Nat
  | [] => if value ≤ 1000 then some value else none
  | c :: cs =>
    if '0' ≤ c && c ≤ '9' && 0 < factor then
      readFraction? (value + factor * (c.toNat - 0x30)) (factor / 10) cs
    else none

def readWeight? : List Char → Option Nat
  | q :: '=' :: d :: more =>
    if (q == 'q' || q == 'Q') && (d == '0' || d == '1') then
      let whole := if d == '1' then 1000 else 0
      match more with
      | [] => some whole
      | '.' :: fraction => readFraction? whole 100 fraction
      | _ => none
    else none
  | _ => none

def readAccepted? (element : List Char) : Option (Coding × Nat) :=
  let name := element.takeWhile (· != ';')
  match Coding.ofName? (String.ofList (Text.trimChars name)) with
  | none => none
  | some coding =>
    match element.dropWhile (· != ';') with
    | [] => some (coding, 1000)
    | _ :: weight => (readWeight? (Text.trimChars weight)).map fun w => (coding, w)

def splitCommas : List Char → List (List Char)
  | [] => [[]]
  | c :: cs =>
    if c == ',' then [] :: splitCommas cs
    else
      match splitCommas cs with
      | piece :: pieces => (c :: piece) :: pieces
      | [] => [[c]]

def acceptedCodings (headers : List Header) : List (Coding × Nat) :=
  (headers.filter fun h => h.name == "accept-encoding").flatMap fun h =>
    match Header.text? h.value with
    | some text => (splitCommas text.toList).filterMap readAccepted?
    | none => []

def bestWeight (coding : Coding) (accepted : List (Coding × Nat)) : Nat :=
  accepted.foldl (fun best (c, w) => if c == coding then max best w else best) 0

/-- The coding to use: gzip when it is accepted with no less weight than identity. -/
def preferredCoding (headers : List Header) : Coding :=
  let accepted := acceptedCodings headers
  let gzip := bestWeight .gzip accepted
  if 0 < gzip && bestWeight .identity accepted ≤ gzip then .gzip else .identity

end TenantGate.Http
