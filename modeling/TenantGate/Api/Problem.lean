import TenantGate.Failure
import TenantGate.Http.MediaType
import TenantGate.Http.Message
import TenantGate.Json.Format

/-!
Problem responses. A problem is a status, a code and a detail, with the list of broken rules when
there is one; the document on the wire adds the type and the title, which follow from the status.
-/
namespace TenantGate.Api

structure ProblemDocument where
  type : String
  title : String
  status : Nat
  detail : String
  code : String
  errors : Option (List String)
deriving Repr, DecidableEq

def ProblemDocument.format : Json.Format ProblemDocument :=
  (Json.Format.record "ProblemDetails"
    (.field "type" .required (fun _ => false) .string <|
      .field "title" .required (fun _ => false) .string <|
      .field "status" .required (fun _ => false) (.natural "u16" 65535) <|
      .field "detail" .required (fun _ => false) .string <|
      .field "code" .required (fun _ => false) .string <|
      .field "errors" (.nullable none) Option.isNone (.optional (.list .string)) .none)).map
    (fun (type, title, status, detail, code, errors, ()) =>
      ⟨type, title, status, detail, code, errors⟩)
    (fun d => (d.type, d.title, d.status, d.detail, d.code, d.errors, ()))

structure Problem where
  status : Http.Status
  code : String
  detail : String
  errors : Option (List String)
deriving Repr, DecidableEq

namespace Problem

def mediaType : String := "application/problem+json"

def ofCode (status : Http.Status) (code detail : String) : Problem := ⟨status, code, detail, none⟩

/-- A tenancy code has one of three statuses, so the fallback is never used. -/
def ofTenancy (code : TenancyCode) (detail : String) : Problem :=
  ofCode ((Http.Status.ofCode? code.httpStatus).getD .badRequest) code.text detail

def ofRejection (r : Rejection) : Problem := ofTenancy r.code r.message

def unauthenticated (detail : String) : Problem := ofCode .unauthorized "Unauthenticated" detail

def validation (errors : List String) : Problem :=
  ⟨.badRequest, "Validation", "Validation failed", some errors⟩

def internal (detail : String) : Problem := ofCode .internalError "Internal" detail

def unavailableDetail : String := "A required service is temporarily unavailable"

/-- The problem that a failure is answered with. What a collaborator said is left out. -/
def ofFailure (f : Failure) : Problem :=
  let status := (Http.Status.ofCode? f.httpStatus).getD .internalError
  match f with
  | .tenancy code message _ => ofCode status code message
  | .unauthenticated message => unauthenticated message
  | .serviceUnavailable _ => ofCode status f.code unavailableDetail
  | _ => ofCode status f.code f.text

def typeOf (status : Http.Status) : String :=
  let known (part : String) : String := "https://tools.ietf.org/html/rfc9110#section-" ++ part
  match status.code.toNat with
  | 400 => known "15.5.1"
  | 401 => known "15.5.2"
  | 403 => known "15.5.4"
  | 404 => known "15.5.5"
  | 500 => known "15.6.1"
  | 503 => known "15.6.4"
  | _ => "about:blank"

def document (p : Problem) : ProblemDocument :=
  ⟨typeOf p.status, p.status.reason?.getD "Unknown Error", p.status.code.toNat, p.detail, p.code,
    p.errors⟩

def text (p : Problem) : String := ProblemDocument.format.write p.document

def respond (p : Problem) : Http.Response := .ofBody p.status mediaType p.text

end Problem

/-!
JSON bodies of requests. A body must be declared as JSON, must not be too long, must start with a
value of the expected shape, and its texts must keep their length rules, which are checked last.
What follows the first value is not looked at.
-/

def greatestBody : Nat := 2097152

/-- How long the text of a field may be, in characters, and what is said when it is not. -/
structure LengthRule where
  field : String
  least : Nat
  greatest : Nat
  message : Option String
deriving Repr, DecidableEq

namespace LengthRule

def keeps (rule : LengthRule) (text : String) : Bool :=
  rule.least ≤ text.length && text.length ≤ rule.greatest

def complaint (rule : LengthRule) : String :=
  rule.field ++ ": " ++ rule.message.getD "length"

end LengthRule

def refuseBody (status : Http.Status) (detail : String) : Problem :=
  .ofCode status "Validation" detail

def faultProblem (f : Json.Fault) : Problem :=
  match f.cause.kind with
  | .misfit =>
    refuseBody .unprocessable
      ("Failed to deserialize the JSON body into the target type: " ++ f.message)
  | _ => refuseBody .badRequest ("Failed to parse the request body as JSON: " ++ f.message)

def readBody {α : Type} (format : Json.Format α) (headers : List Http.Header)
    (body : List UInt8) : Except Problem α :=
  if !Http.bodyIsJson headers then
    .error (refuseBody .unsupportedMediaType
      "Expected request with `Content-Type: application/json`")
  else if greatestBody < body.length then
    .error (refuseBody .payloadTooLarge
      "Failed to buffer the request body: length limit exceeded")
  else
    match format.readLeading body with
    | .ok a => .ok a
    | .error f => .error (faultProblem f)

def readChecked {α : Type} (format : Json.Format α) (rule : LengthRule) (text : α → String)
    (headers : List Http.Header) (body : List UInt8) : Except Problem α := do
  let a ← readBody format headers body
  if rule.keeps (text a) then return a else .error (.validation [rule.complaint])

end TenantGate.Api
