import TenantGate.Gate.Host

/-!
Layers tried out one by one: routes that show what the layers left on a request, any of which may
be entered in the route table, inside any sequence of layers.
-/
namespace TenantGate.Gate

open Api

namespace Bench

variable {σ : Type}

inductive LayerName where
  | requestCancellation
  | authenticate
  | authorize
  | multiTenancy
deriving Repr, DecidableEq

namespace LayerName

def name : LayerName → String
  | .requestCancellation => "request_cancellation"
  | .authenticate => "authenticate"
  | .authorize => "authorize"
  | .multiTenancy => "multi_tenancy"

def ofName? (name : String) : Option LayerName :=
  [LayerName.requestCancellation, .authenticate, .authorize, .multiTenancy].find? fun l =>
    l.name == name

def layer (table : RouteTable) (services : Services σ) (took : Durations) : LayerName → Layer σ
  | .requestCancellation => Gate.requestCancellation
  | .authenticate => Gate.authenticate services.introspect
  | .authorize => Gate.authorize table
  | .multiTenancy => Gate.multiTenancy table services took

end LayerName

structure Spot where
  descriptor : Descriptor
  registered : Bool
deriving Repr, DecidableEq

def tableOf (spots : List Spot) : Except Failure RouteTable :=
  (spots.filter (·.registered)).foldlM (fun table s => table.insert s.descriptor) .empty

def routes (spots : List Spot) (table : RouteTable) (layers : List LayerName)
    (services : Services σ) (took : Durations) : List (Route σ) :=
  spots.map fun s =>
    ⟨s.descriptor.path, s.descriptor.method,
      wrapAll (layers.map (LayerName.layer table services took)) Handlers.inspect⟩

/-- Answers a request and notes the length of the body, which `HEAD` leaves out. -/
def answer (routes : List (Route σ)) (extensions : Extensions) (request : Http.Request)
    (site : Site σ) : Http.Response × Site σ :=
  let (r, site) := Router.dispatch routes extensions request site
  (Host.withoutBody request (r.addHeader "content-length" (toString r.body.utf8ByteSize)), site)

end Bench

end TenantGate.Gate
