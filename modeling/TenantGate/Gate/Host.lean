import TenantGate.Gate.Handlers
import TenantGate.Http.ContentCoding

/-!
The whole host: the operations behind their layers, the probes without them, and around everything
the cancellation of requests, the compression of bodies and the answers to other origins. Bodies are
kept as they are before compression; the content coding is noted in the headers.
-/
namespace TenantGate.Gate

open Api

namespace Host

variable {σ : Type}

/-- The layers of the operations, from the outside. -/
def operationLayers (table : RouteTable) (services : Services σ) (took : Durations) :
    List (Layer σ) :=
  [authenticate services.introspect, authorize table, multiTenancy table services took]

def probeRoutes : List (Route σ) :=
  [⟨"/health", .get, Handlers.health⟩, ⟨"/health/ready", .get, Handlers.ready⟩,
    ⟨"/health/live", .get, Handlers.live⟩, ⟨"/metrics", .get, Handlers.metrics⟩]

def layeredRoutes (layers : List (Layer σ)) (registry : Registry (Handler σ)) : List (Route σ) :=
  registry.handlers.map fun m => ⟨m.path, m.method, wrapAll layers m.handler⟩

def routes (registry : Registry (Handler σ)) (services : Services σ) (took : Durations) :
    List (Route σ) :=
  layeredRoutes (operationLayers registry.table services took) registry ++ probeRoutes

def leastCompressed : Nat := 32

/-- Notes the content coding that the request prefers, when the body is long enough for one. -/
def compress (request : Http.Request) (r : Http.Response) : Http.Response :=
  if r.body.utf8ByteSize < leastCompressed then r
  else
    let r := r.addHeader "vary" "accept-encoding"
    match Http.preferredCoding request.headers with
    | .gzip => r.addHeader "content-encoding" "gzip"
    | .identity => r

def originVary : String := "origin, access-control-request-method, access-control-request-headers"

def openToOrigins (r : Http.Response) : Http.Response :=
  (r.addHeader "vary" originVary).addHeader "access-control-allow-origin" "*"

def preflight (allowed : Option String) : Http.Response :=
  let r := (openToOrigins (.bare .ok)).addHeader "access-control-allow-methods" "*"
  let r := (r.addHeader "access-control-allow-headers" "*").addHeader "content-length" "0"
  match allowed with
  | some methods => r.addHeader "allow" methods
  | none => r

def withoutBody (request : Http.Request) (r : Http.Response) : Http.Response :=
  if request.method = .head then { r with body := "" } else r

def answer (routes : List (Route σ)) (request : Http.Request) (site : Site σ) :
    Http.Response × Site σ :=
  if request.method = .options then
    (preflight (Router.allowedAt routes request.uri.path), site)
  else
    let (r, site) :=
      Router.dispatch (Router.inside requestCancellation routes) .none request site
    (withoutBody request (openToOrigins (compress request r)), site)

theorem answer_eq (routes : List (Route σ)) (request : Http.Request) (site : Site σ) :
    answer routes request site =
      if request.method = .options then
        (preflight (Router.allowedAt routes request.uri.path), site)
      else
        let (r, site) :=
          Router.dispatch routes { Extensions.none with cancelled := some false } request site
        (withoutBody request (openToOrigins (compress request r)), site) := by
  rw [answer, Router.dispatch_inside requestCancellation routes
    (fun extensions => { extensions with cancelled := some false }) fun _ _ => rfl]

def serve (registry : Registry (Handler σ)) (services : Services σ) (took : Durations)
    (request : Http.Request) (site : Site σ) : Http.Response × Site σ :=
  answer (routes registry services took) request site

end Host

end TenantGate.Gate
