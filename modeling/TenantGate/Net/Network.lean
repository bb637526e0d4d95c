import TenantGate.Http.Message
import TenantGate.Net.Url

/-!
Requests to other services. A request that cannot be put together is not sent; one that is sent is
either answered or refused. What is sent is a whole exchange, in which redirects have been followed
already: a delivery is the last answer, so it has no location to go on to.
-/
namespace TenantGate.Net

structure Outgoing where
  method : Http.Method
  url : Url
  headers : List Http.Header
  body : String
deriving Repr, DecidableEq

inductive Delivery where
  | refused
  | answered (status : Http.Status) (body : List UInt8)
deriving Repr

/-- One call of a network is a whole exchange with a service, redirects followed inside; `ν` is the
state of the network. -/
abbrev Network (ν : Type) := Outgoing → ν → Delivery × ν

def Network.offline {ν : Type} : Network ν := fun _ state => (.refused, state)

inductive SendFault where
  | unbuilt
  | unsendable (url : String)
  | refused (url : String)
deriving Repr, DecidableEq

def SendFault.text : SendFault → String
  | .unbuilt => "builder error"
  | .unsendable url => "builder error for url (" ++ url ++ ")"
  | .refused url => "error sending request for url (" ++ url ++ ")"

def isSendable (url : Url) : Bool :=
  url.hasHost && (url.scheme == "http" || url.scheme == "https") &&
    (Http.Uri.ofText? ({ url.withoutUser with fragment := none } : Url).text).isSome

def base64Digit (n : Nat) : Char :=
  "ABCDEFGHIJKLMNOPQRSTUVWXYZabcdefghijklmnopqrstuvwxyz0123456789+/".toList.getD n '='

/-- Three bytes make four digits; equals signs stand for what is missing at the end. -/
def base64 : List UInt8 → List Char
  | [] => []
  | [a] => [base64Digit (a.toNat / 4), base64Digit (a.toNat % 4 * 16), '=', '=']
  | [a, b] =>
    [base64Digit (a.toNat / 4), base64Digit (a.toNat % 4 * 16 + b.toNat / 16),
      base64Digit (b.toNat % 16 * 4), '=']
  | a :: b :: c :: rest =>
    base64Digit (a.toNat / 4) :: base64Digit (a.toNat % 4 * 16 + b.toNat / 16) ::
      base64Digit (b.toNat % 16 * 4 + c.toNat / 64) :: base64Digit (c.toNat % 64) :: base64 rest

/-- User and password of an address, as a header gives them. A user that is no UTF-8 is left out
with the password, and a password that is none is left out alone. -/
def Url.userHeader (url : Url) : Option Http.Header := do
  let decoded (part : List Char) : Option String :=
    Utf8.decode? (Text.percentDecode (Utf8.encode (String.ofList part)))
  let user ← decoded url.username
  let password := url.password.bind decoded
  if user.isEmpty && password.isNone then none
  else
    let known := Utf8.encode (user ++ ":" ++ password.getD "")
    some (.ofText "authorization" ("Basic " ++ String.ofList (base64 known)))

structure Draft where
  method : Http.Method
  url : Except UrlFault Url
  headers : List (String × String)
  body : String

/-- Puts a request together. User and password of the address become a header in front of the
others. -/
def Draft.build (d : Draft) : Except SendFault Outgoing :=
  match d.url with
  | .error _ => .error .unbuilt
  | .ok url =>
    if !url.hasHost then .error (.unsendable url.text)
    else
      match d.headers.mapM fun (name, value) => Http.Header.ofTexts? name value with
      | none => .error .unbuilt
      | some headers =>
        if isSendable url then
          .ok ⟨d.method, url.withoutUser, url.userHeader.toList ++ headers, d.body⟩
        else .error (.unsendable url.withoutUser.text)

def Network.send {ν : Type} (network : Network ν) (d : Draft) (state : ν) :
    Except SendFault (Http.Status × List UInt8) × ν :=
  match d.build with
  | .error f => (.error f, state)
  | .ok request =>
    match network request state with
    | (.refused, state) => (.error (.refused request.url.text), state)
    | (.answered status body, state) => (.ok (status, body), state)

end TenantGate.Net
