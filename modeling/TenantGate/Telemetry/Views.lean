import TenantGate.Decimal.Shortest
import TenantGate.Json.Format
import TenantGate.Telemetry.Metrics

/-!
Health of the two collaborators that tenancy resolution depends on, and the report about them.
-/
namespace TenantGate.Telemetry

inductive HealthStatus where
  | healthy
  | degraded
  | unhealthy
deriving Repr, DecidableEq

namespace HealthStatus

def isHealthy : HealthStatus → Bool
  | .healthy => true
  | _ => false

def isServing : HealthStatus → Bool
  | .unhealthy => false
  | _ => true

def name : HealthStatus → String
  | .healthy => "Healthy"
  | .degraded => "Degraded"
  | .unhealthy => "Unhealthy"

def wireName : HealthStatus → String
  | .healthy => "healthy"
  | .degraded => "degraded"
  | .unhealthy => "unhealthy"

def format : Json.Format HealthStatus :=
  .alternatives "enum HealthStatus" wireName
    [("healthy", .healthy), ("degraded", .degraded), ("unhealthy", .unhealthy)]

end HealthStatus

structure ComponentHealth where
  healthy : Bool
  message : Option String
deriving Repr, DecidableEq

namespace ComponentHealth

def start : ComponentHealth := ⟨false, none⟩

def sound : ComponentHealth := ⟨true, none⟩

def broken (message : String) : ComponentHealth := ⟨false, some message⟩

end ComponentHealth

inductive Component where
  | endUsers
  | organizations
deriving Repr, DecidableEq

namespace Component

def name : Component → String
  | .endUsers => "end_users"
  | .organizations => "organizations"

def ofName? (name : String) : Option Component :=
  [Component.endUsers, .organizations].find? fun c => c.name == name

end Component

structure ComponentReport where
  name : String
  healthy : Bool
  message : Option String
deriving Repr, DecidableEq

def ComponentReport.format : Json.Format ComponentReport :=
  (Json.Format.record "ComponentHealthReport"
    (.field "name" .required (fun _ => false) .string <|
      .field "healthy" .required (fun _ => false) .boolean <|
      .field "message" (.nullable none) (fun _ => false) (.optional .string) .none)).map
    (fun (name, healthy, message, ()) => ⟨name, healthy, message⟩)
    (fun r => (r.name, r.healthy, r.message, ()))

structure HealthReport where
  status : HealthStatus
  components : List ComponentReport
deriving Repr, DecidableEq

def HealthStatus.ofComponents (components : List ComponentReport) : HealthStatus :=
  if components.all ComponentReport.healthy then .healthy
  else if components.any ComponentReport.healthy then .degraded
  else .unhealthy

def HealthReport.format : Json.Format HealthReport :=
  (Json.Format.record "HealthReport"
    (.field "status" .required (fun _ => false) HealthStatus.format <|
      .field "components" .required (fun _ => false) (.list ComponentReport.format) .none)).map
    (fun (status, components, ()) => ⟨status, components⟩)
    (fun r => (r.status, r.components, ()))

structure Health where
  endUsers : ComponentHealth
  organizations : ComponentHealth
deriving Repr, DecidableEq

namespace Health

def start : Health := ⟨.start, .start⟩

def component (h : Health) : Component → ComponentHealth
  | .endUsers => h.endUsers
  | .organizations => h.organizations

def set (h : Health) (c : Component) (state : ComponentHealth) : Health :=
  match c with
  | .endUsers => { h with endUsers := state }
  | .organizations => { h with organizations := state }

def isReady (h : Health) : Bool := h.endUsers.healthy && h.organizations.healthy

def isAlive (_ : Health) : Bool := true

def reportOn (h : Health) (c : Component) : ComponentReport :=
  ⟨c.name, (h.component c).healthy, (h.component c).message⟩

def report (h : Health) : HealthReport :=
  let components := [h.reportOn .endUsers, h.reportOn .organizations]
  ⟨.ofComponents components, components⟩

end Health

/-!
What the host tells about itself: the body of the health check and the snapshot of the metrics.
-/

structure HealthBody where
  status : String
  endUsersConnected : Bool
  organizationsConnected : Bool
  tenanciesResolved : Nat
  components : List ComponentReport
deriving Repr, DecidableEq

namespace HealthBody

def format : Json.Format HealthBody :=
  (Json.Format.record "HealthResponse"
    (.field "status" .required (fun _ => false) .string <|
      .field "end_users_connected" .required (fun _ => false) .boolean <|
      .field "organizations_connected" .required (fun _ => false) .boolean <|
      .field "tenancies_resolved" .required (fun _ => false) (.natural "u64" 0xFFFFFFFFFFFFFFFF) <|
      .field "components" .required (fun _ => false) (.list ComponentReport.format) .none)).map
    (fun (status, endUsers, organizations, resolved, components, ()) =>
      ⟨status, endUsers, organizations, resolved, components⟩)
    (fun b =>
      (b.status, b.endUsersConnected, b.organizationsConnected, b.tenanciesResolved, b.components,
        ()))

/-- The body tells the status by its name in small letters. -/
def ofState (h : Health) (m : Metrics) : HealthBody :=
  ⟨h.report.status.name.toLower, h.endUsers.healthy, h.organizations.healthy,
    (m.get .tenanciesResolved).toNat, h.report.components⟩

end HealthBody

def snapshotText (now : String) (m : Metrics) : String :=
  Json.objectText <|
    ("timestamp", Json.stringText now) ::
      (Counter.all.map fun c => (c.name, toString (m.get c))) ++
      (Latency.all.map fun l => (l.meanName, Decimal.pointed.writeFloat (m.latency l).mean))

end TenantGate.Telemetry
