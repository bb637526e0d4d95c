import TenantGate.Api.Operations
import TenantGate.Api.RouteTable
import TenantGate.Gate.Layers
import TenantGate.Gate.Router
import TenantGate.Telemetry.Views

/-!
The handlers of the operations and of the probes. A handler takes what it needs from the request
in a fixed order, and the first thing that is missing or malformed decides the answer.
-/
namespace TenantGate.Gate

open Api Telemetry

namespace Handlers

variable {σ : Type}

def recordCrash : Handler σ := fun inbound site =>
  match CrashReport.read inbound.request.headers inbound.request.body with
  | .ok _ => (.json (Json.objectText []), site)
  | .error p => (p.respond, site)

def needTenancy (e : Extensions) : Except Problem Tenancy :=
  match e.tenancy? with
  | some tenancy => .ok tenancy
  | none => .error (.internal "No tenancy was resolved for this request")

def organizationSettings : Handler σ := fun inbound site =>
  match inbound.values with
  | .error name => (.plain .badRequest ("Invalid URL: Invalid UTF-8 in `" ++ name ++ "`"), site)
  | .ok _ =>
    match needTenancy inbound.extensions with
    | .ok tenancy =>
      (.json (OrganizationSettings.format.write (.ofTenancy tenancy)), site)
    | .error p => (p.respond, site)

def authorizeByNothing : Handler σ := fun inbound site =>
  (.json (CallReport.format.write
    (.ofCall inbound.extensions.callerOrAnonymous inbound.extensions.tenancy?)), site)

/-- Whether the query gives the organization more than once. -/
def repeatsOrganization (uri : Http.Uri) : Bool :=
  let pairs := Text.formPairs (uri.query.getD [])
  1 < (pairs.filter fun (name, _) => name == "organizationId").length

def tenancyReport : Handler σ := fun inbound site =>
  if repeatsOrganization inbound.request.uri then
    (.plain .badRequest "Failed to deserialize query string: duplicate field `organizationId`",
      site)
  else
    match needTenancy inbound.extensions with
    | .ok tenancy =>
      (.json (CallReport.format.write
        (.ofCall inbound.extensions.callerOrAnonymous (some tenancy))), site)
    | .error p => (p.respond, site)

def health : Handler σ := fun _ site =>
  (.json (HealthBody.format.write (.ofState site.health site.metrics)), site)

def ready : Handler σ := fun _ site =>
  (.bare (if site.health.isReady then .ok else .serviceUnavailable), site)

def live : Handler σ := fun _ site =>
  (.bare (if site.health.isAlive then .ok else .serviceUnavailable), site)

def metrics : Handler σ := fun _ site => (.json (snapshotText site.now site.metrics), site)

def booleanOrNull : Option Bool → String
  | some b => Json.booleanText b
  | none => "null"

/-- The settings as a list of names with their values and whether they are encrypted. -/
def settingsTable (settings : Settings) : String :=
  Json.listText <| settings.entries.map fun (name, setting) =>
    Json.listText [Json.stringText name, Json.stringText setting.value,
      Json.booleanText setting.isEncrypted]

def inspect : Handler σ := fun inbound site =>
  let e := inbound.extensions
  let optionalText := (Json.Format.optional .string).write
  let caller := match e.caller with
    | some caller => Json.objectText [("id", optionalText caller.id?)]
    | none => "null"
  let tenancy := match e.tenancy with
    | some slot =>
      Json.objectText
        [("settings", (slot.tenancy?.map fun t => settingsTable t.settings).getD "null"),
          ("tenant_id", optionalText slot.tenantId?)]
    | none => "null"
  (.json (Json.objectText
    [("caller", caller), ("cancelled", booleanOrNull e.cancelled), ("tenancy", tenancy)]), site)

end Handlers

def operations {σ : Type} : List (Entry (Handler σ)) :=
  [⟨Contracts.recordCrash, false, Handlers.recordCrash⟩,
    ⟨Contracts.organizationSettings, true, Handlers.organizationSettings⟩,
    ⟨Contracts.authorizeByNothing, false, Handlers.authorizeByNothing⟩,
    ⟨Contracts.tenancyReport, true, Handlers.tenancyReport⟩]

def registeredOperations {σ : Type} (testing : Bool) : Except Failure (Registry (Handler σ)) :=
  Registry.empty.registerAll testing operations

end TenantGate.Gate
