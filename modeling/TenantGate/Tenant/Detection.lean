import TenantGate.Api.RouteTable
import TenantGate.Http.Message
import TenantGate.Http.Uri
import TenantGate.Text.Encoding
import TenantGate.Text.Printable

/-!
Detection of the tenant that a request names: by its route value, else by its header, else by its
query. Blank values do not count, and the others count without the blanks around them. Whether a
tenant is required is the route's word alone.
-/
namespace TenantGate

structure Detection where
  required : Bool
  tenantId : Option String
deriving Repr, DecidableEq

namespace Detection

def none : Detection := ⟨false, .none⟩

end Detection

abbrev RouteValues := List (String × String)

namespace Detective

def routeValue : String := "organization_id"

def header : String := "tenant"

def queryNames : List String := ["organizationId", "tenantId"]

def fromRoute (values : RouteValues) : Option String :=
  (values.lookup routeValue).bind Text.nonBlank?

def fromHeader (headers : List Http.Header) : Option String :=
  (Http.firstText? headers header).bind Text.nonBlank?

def fromPairs (name : String) (pairs : List (String × String)) : Option String :=
  pairs.findSome? fun (key, value) => if key == name then Text.nonBlank? value else .none

def fromQuery (uri : Http.Uri) : Option String :=
  uri.query.bind fun query =>
    queryNames.findSome? fun name => fromPairs name (Text.formPairs query)

/-- What a request tells about its tenant. Without a route nothing is looked at. -/
def detect (uri : Http.Uri) (headers : List Http.Header) (values : RouteValues)
    (route : Option Api.Descriptor) : Detection :=
  match route with
  | .none => .none
  | some route =>
    ⟨route.requiresTenant,
      (fromRoute values).or ((fromHeader headers).or (fromQuery uri))⟩

end Detective

end TenantGate
