import TenantGate.Api.RouteTable
import TenantGate.Auth.Bearer
import TenantGate.Gate.Site
import TenantGate.Tenant.Resolver

/-!
The layers around an operation: cancellation, authentication, access and tenancy, in this order
from the outside. A layer either answers itself, and then nothing behind it happens, or hands the
request on with what it found out.
-/
namespace TenantGate.Gate

open Api Telemetry

variable {σ : Type}

/-- Gives the request a cancellation flag of its own, which is not set while it is served. -/
def requestCancellation : Layer σ := fun next inbound =>
  next { inbound with extensions := { inbound.extensions with cancelled := some false } }

def callerOf (introspect : String → Call σ Auth.Introspection) (headers : List Http.Header) :
    Call (Site σ) Caller := do
  let token? ← Call.ofExcept (Auth.bearerToken (Http.firstText? headers "authorization"))
  match token? with
  | none => return .anonymous
  | some token =>
    let verdict ← (introspect token).onPart Site.services Site.putServices
    let id ← Call.ofExcept verdict.callerId
    return .authenticated id

/-- Finds out the caller, or answers that the header is bad or the token is not accepted. -/
def authenticate (introspect : String → Call σ Auth.Introspection) : Layer σ :=
  fun next inbound site =>
    match callerOf introspect inbound.request.headers site with
    | (.ok caller, site) => next (inbound.withCaller caller) site
    | (.error f, site) => ((Problem.ofFailure f).respond, site)

def operationOf (table : RouteTable) (inbound : Inbound) : Option Descriptor :=
  table.find? inbound.request.method inbound.template

def mayCall (d : Descriptor) (caller : Option Caller) : Bool :=
  match d.access with
  | .anonymous => true
  | .token => (caller.map Caller.isAuthenticated).getD false

def authorize (table : RouteTable) : Layer σ := fun next inbound site =>
  match operationOf table inbound with
  | some d =>
    if mayCall d inbound.extensions.caller then next inbound site
    else
      ((Problem.unauthenticated (d.operation ++ " requires an authenticated caller")).respond, site)
  | none => next inbound site

def rejectionCounter : TenancyCode → Counter
  | .missingTenantId => .rejectedMissingTenant
  | .invalidTenantId => .rejectedInvalidTenant
  | .userNotAMember => .rejectedNotAMember

/-- What the request tells about its tenant. Values that cannot be decoded are no values. -/
def detectionOf (d : Descriptor) (inbound : Inbound) : Detection :=
  Detective.detect inbound.request.uri inbound.request.headers (inbound.values.toOption.getD [])
    (some d)

def publish (tenancy : Tenancy) (inbound : Inbound) : Except Failure Inbound :=
  ((inbound.extensions.tenancy.getD .empty).set tenancy).map inbound.withSlot

def conclude (next : Handler σ) (inbound : Inbound) (site : Site σ) :
    Except Failure Outcome → Http.Response × Site σ
  | .error f =>
    let site := if f.isCancelled then site.count .cancelledRequests else site
    ((Problem.ofFailure f).respond, site)
  | .ok .forward => next inbound (site.count .forwardedUntenanted)
  | .ok (.forwardWith tenancy) =>
    match publish tenancy inbound with
    | .ok inbound => next inbound (site.count .tenanciesResolved)
    | .error f => ((Problem.ofFailure f).respond, site)
  | .ok (.reject rejection) =>
    ((Problem.ofRejection rejection).respond, site.count (rejectionCounter rejection.code))

def decideTenancy (services : Services σ) (took : Durations) (d : Descriptor) (inbound : Inbound) :
    Call (Site σ) Outcome := fun site =>
  Resolver.resolve services.isValid services.toCollaborators took
    inbound.extensions.callerOrAnonymous (detectionOf d inbound) inbound.extensions.isCancelled
    (site.count .requestsInspected)

/-- Resolves the tenancy of the request and publishes it, or answers why it cannot. A request that
is for no operation of the table passes through. -/
def multiTenancy (table : RouteTable) (services : Services σ) (took : Durations) : Layer σ :=
  fun next inbound site =>
    match operationOf table inbound with
    | none => next inbound site
    | some d =>
      let (result, site) := decideTenancy services took d inbound site
      conclude next inbound (site.observe .resolution took.resolution) result

end TenantGate.Gate
