import TenantGate.Api.Problem
import TenantGate.Auth.Bearer
import TenantGate.Call
import TenantGate.Telemetry.Metrics
import TenantGate.Telemetry.Views
import TenantGate.Tenant.Detection
import TenantGate.Tenant.Tenancy

/-!
The state that requests share, and the collaborators they consult. Collaborators work on a state
of their own, of any type `σ`: their memories, caches and networks. Beside it the site keeps the
metrics, the health of the collaborators and the time that its clock shows.
-/
namespace TenantGate.Gate

open Telemetry

structure Site (σ : Type) where
  metrics : Metrics
  health : Health
  now : String
  services : σ

namespace Site

variable {σ : Type}

def count (c : Counter) (site : Site σ) : Site σ :=
  { site with metrics := site.metrics.increment c }

def observe (l : Latency) (took : UInt64) (site : Site σ) : Site σ :=
  { site with metrics := site.metrics.observe took l }

def putServices (services : σ) (site : Site σ) : Site σ := { site with services }

end Site

/-- The two services that tenancy is resolved with. The flag says whether the request is cancelled
already. -/
structure Collaborators (σ : Type) where
  memberships : Caller → String → Bool → Call σ User
  settings : Caller → String → Bool → Call σ Settings

structure Services (σ : Type) extends Collaborators σ where
  introspect : String → Call σ Auth.Introspection
  isValid : String → Bool

/-- How long the steps of a request take, in milliseconds, as the clock measures them. -/
structure Durations where
  memberships : UInt64
  settings : UInt64
  resolution : UInt64
deriving Repr, DecidableEq

def Durations.instant : Durations := ⟨0, 0, 0⟩

/-!
A request on its way to its handler: the message, the pattern that its path matched with the values
in the path, and what the layers have found out so far.
-/

structure Extensions where
  caller : Option Caller
  cancelled : Option Bool
  tenancy : Option Slot
deriving Repr, DecidableEq

namespace Extensions

def none : Extensions := ⟨.none, .none, .none⟩

def callerOrAnonymous (e : Extensions) : Caller := e.caller.getD .anonymous

def isCancelled (e : Extensions) : Bool := e.cancelled.getD false

def tenancy? (e : Extensions) : Option Tenancy := e.tenancy.bind (·.tenancy?)

end Extensions

structure Inbound where
  request : Http.Request
  template : String
  /-- The decoded path values, or the name of the first one that is no UTF-8. -/
  values : Except String RouteValues
  extensions : Extensions

namespace Inbound

def withCaller (inbound : Inbound) (caller : Caller) : Inbound :=
  { inbound with extensions := { inbound.extensions with caller := some caller } }

def withSlot (inbound : Inbound) (slot : Slot) : Inbound :=
  { inbound with extensions := { inbound.extensions with tenancy := some slot } }

end Inbound

abbrev Handler (σ : Type) := Inbound → Site σ → Http.Response × Site σ

abbrev Layer (σ : Type) := Handler σ → Handler σ

/-- The handler inside some layers, the first of them outermost. -/
def wrapAll {σ : Type} (layers : List (Layer σ)) (handler : Handler σ) : Handler σ :=
  layers.foldr (fun layer inner => layer inner) handler

end TenantGate.Gate
