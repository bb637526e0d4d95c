import TenantGate.Failure
import TenantGate.Gate.Site
import TenantGate.Tenant.Detection
import TenantGate.Tenant.Tenancy

/-!
The tenancy decision. A request is forwarded, forwarded with a tenancy, or turned away; at most one
membership lookup and one settings lookup are made for it. When a lookup fails, so does the
decision: a failure is never a rejection.
-/
namespace TenantGate

inductive Outcome where
  | forward
  | forwardWith (tenancy : Tenancy)
  | reject (rejection : Rejection)
deriving Repr, DecidableEq

namespace Resolver

open Gate Telemetry

variable {σ α : Type}

def measured (lookups errors : Counter) (latency : Latency) (took : UInt64) (lookup : Call σ α) :
    Call (Site σ) α := fun site =>
  match lookup.onPart Site.services Site.putServices (site.count lookups) with
  | (.ok a, site) => (.ok a, site.observe latency took)
  | (.error f, site) => (.error f, (site.observe latency took).count errors)

def memberships (services : Collaborators σ) (took : Durations) (caller : Caller) (id : String)
    (cancelled : Bool) : Call (Site σ) User :=
  measured .membershipLookups .membershipLookupErrors .membership took.memberships
    (services.memberships caller id cancelled)

def hydrate (services : Collaborators σ) (took : Durations) (caller : Caller) (tenantId : String)
    (cancelled : Bool) : Call (Site σ) Outcome := do
  let settings ← measured .settingsLookups .settingsLookupErrors .settings took.settings
    (services.settings caller tenantId cancelled)
  return .forwardWith ⟨tenantId, settings⟩

def resolveAnonymous (isValid : String → Bool) (services : Collaborators σ) (took : Durations)
    (detection : Detection) (cancelled : Bool) : Call (Site σ) Outcome :=
  match detection.tenantId with
  | none => return if detection.required then .reject .missingTenantId else .forward
  | some tenantId =>
    if isValid tenantId then hydrate services took .anonymous tenantId cancelled
    else return .reject .invalidTenantId

/-- The decision for a user who names no tenant where one is required: the default one, if there
is exactly one. -/
def resolveDefault (services : Collaborators σ) (took : Durations) (caller : Caller) (user : User)
    (cancelled : Bool) : Call (Site σ) Outcome :=
  match user.defaultMemberships with
  | [membership] => do
    let outcome ← hydrate services took caller membership.organizationId cancelled
    Call.change (Site.count .defaultTenanciesResolved)
    return outcome
  | _ => return .reject .missingTenantId

def resolveAuthenticated (isValid : String → Bool) (services : Collaborators σ) (took : Durations)
    (callerId : String) (detection : Detection) (cancelled : Bool) : Call (Site σ) Outcome :=
  let caller := Caller.authenticated callerId
  match detection.tenantId with
  | some tenantId =>
    if isValid tenantId then do
      let user ← memberships services took caller callerId cancelled
      match user.membershipOf tenantId with
      | some _ => hydrate services took caller tenantId cancelled
      | none => return .reject (.notAMember tenantId)
    else return .reject .invalidTenantId
  | none =>
    if detection.required then do
      let user ← memberships services took caller callerId cancelled
      resolveDefault services took caller user cancelled
    else return .forward

/-- Decides the tenancy of a request from its caller and what it tells about its tenant. -/
def resolve (isValid : String → Bool) (services : Collaborators σ) (took : Durations)
    (caller : Caller) (detection : Detection) (cancelled : Bool) : Call (Site σ) Outcome :=
  match caller with
  | .anonymous => resolveAnonymous isValid services took detection cancelled
  | .authenticated id => resolveAuthenticated isValid services took id detection cancelled

end Resolver

end TenantGate
