import TenantGate.Failure
import TenantGate.Json.Format
import TenantGate.Text.Printable

/-!
Who makes a request.
-/
namespace TenantGate

inductive Caller where
  | anonymous
  | authenticated (id : String)
deriving Repr, DecidableEq

namespace Caller

def isAuthenticated : Caller → Bool
  | .anonymous => false
  | .authenticated _ => true

def id? : Caller → Option String
  | .anonymous => none
  | .authenticated id => some id

end Caller

end TenantGate

/-!
Token introspection: what is asked of the identity service and what it answers.
-/
namespace TenantGate.Auth

structure Introspection where
  active : Bool
  subject : Option String
deriving Repr, DecidableEq

namespace Introspection

def ofSubject (subject : String) : Introspection := ⟨true, some subject⟩

def inactive : Introspection := ⟨false, none⟩

def callerId (verdict : Introspection) : Except Failure String :=
  if verdict.active then
    match verdict.subject with
    | some subject =>
      if subject.isEmpty then .error (.unauthenticated "Token has no subject") else .ok subject
    | none => .error (.unauthenticated "Token has no subject")
  else .error (.unauthenticated "Token is invalid or expired")

def format : Json.Format Introspection :=
  (Json.Format.record "IntrospectionResponse"
    (.field "active" .required (fun _ => false) .boolean <|
      .field "sub" (.nullable none) (fun _ => false) (.optional .string) .none)).map
    (fun (active, subject, ()) => ⟨active, subject⟩)
    (fun v => (v.active, v.subject, ()))

end Introspection

structure IntrospectionRequest where
  token : String
deriving Repr, DecidableEq

def IntrospectionRequest.format : Json.Format IntrospectionRequest :=
  (Json.Format.record "IntrospectionRequest"
    (.field "token" .required (fun _ => false) .string .none)).map
    (fun (token, ()) => ⟨token⟩) (fun r => (r.token, ()))

/-!
The token of an `Authorization` header. The scheme is `Bearer` with exactly this spelling and one
space; blanks around the token are dropped.
-/

def scheme : String := "Bearer "

/-- The token that the header carries. Without a header there is none, which is no failure. -/
def bearerToken : Option String → Except Failure (Option String)
  | none => .ok none
  | some header =>
    match Text.dropLeading? scheme.toList header.toList with
    | none => .error (.unauthenticated "Authorization header must use the Bearer scheme")
    | some rest =>
      let token := Text.trimChars rest
      if token.isEmpty then .error (.unauthenticated "Bearer token is empty")
      else .ok (some (String.ofList token))

end TenantGate.Auth
