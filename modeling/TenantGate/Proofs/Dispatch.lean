import TenantGate.Proofs.Serving

/-!
Which operation a request is for. The path and the method alone say so; services and layers have no
part in it. A request for an operation is answered by the handler of the operation behind its steps,
and any other request asks no service anything.
-/
namespace TenantGate.Gate

open Api

variable {σ : Type}

namespace Router

theorem findTemplate_eq (routes : List (Route σ)) (path : List UInt8) :
    findTemplate routes path =
      ((routes.map Route.template).filterMap (matchTemplate path)).foldl closer none := by
  rw [findTemplate, List.filterMap_map]
  rfl

end Router

namespace Host

def probeTemplates : List String := ["/health", "/health/ready", "/health/live", "/metrics"]

def matched? (registry : Registry (Handler σ)) (path : List UInt8) : Option Router.Match :=
  Router.findTemplate (layeredRoutes [] registry ++ probeRoutes) path

theorem templates_layered (layers : List (Layer σ)) (registry : Registry (Handler σ)) :
    (layeredRoutes layers registry ++ probeRoutes).map Route.template =
      registry.handlers.map Mount.path ++ probeTemplates := by
  simp only [layeredRoutes, List.map_append, List.map_map]
  rfl

theorem matched?_eq (registry : Registry (Handler σ)) (path : List UInt8) :
    matched? registry path =
      ((registry.handlers.map Mount.path ++ probeTemplates).filterMap
        (Router.matchTemplate path)).foldl Router.closer none := by
  rw [matched?, Router.findTemplate_eq, templates_layered]

theorem findTemplate_routes (registry : Registry (Handler σ)) (services : Services σ)
    (took : Durations) (path : List UInt8) :
    Router.findTemplate (routes registry services took) path = matched? registry path := by
  rw [matched?_eq, Router.findTemplate_eq, routes, templates_layered]

def inboundOf (request : Http.Request) (m : Router.Match) : Inbound :=
  ⟨request, m.template, Http.decodeValues m.values,
    { Extensions.none with cancelled := some false }⟩

def mountFor? (registry : Registry (Handler σ)) (template : String) (method : Http.Method) :
    Option (Mount (Handler σ)) :=
  registry.handlers.find? fun mount =>
    mount.path == template && Router.servesMethod mount.method method

def operationFor? (registry : Registry (Handler σ)) (request : Http.Request) :
    Option (Mount (Handler σ) × Inbound) :=
  if request.method = .options then none
  else
    (matched? registry request.uri.path).bind fun m =>
      (mountFor? registry m.template request.method).map fun mount =>
        (mount, inboundOf request m)

theorem routeAt_layered (layers : List (Layer σ)) (registry : Registry (Handler σ))
    (template : String) (method : Http.Method) :
    Router.routeAt (layeredRoutes layers registry) template method =
      (mountFor? registry template method).map fun mount =>
        ⟨mount.path, mount.method, wrapAll layers mount.handler⟩ := by
  simp only [Router.routeAt, Router.atTemplate, layeredRoutes, mountFor?, List.find?_filter,
    List.find?_map]
  congr 2
  funext mount
  simp only [Function.comp_apply, Bool.decide_and, Bool.decide_eq_true]

theorem routeAt_routes (registry : Registry (Handler σ)) (services : Services σ)
    (took : Durations) (template : String) (method : Http.Method) :
    Router.routeAt (routes registry services took) template method =
      ((mountFor? registry template method).map fun mount =>
        ⟨mount.path, mount.method,
          wrapAll (operationLayers registry.table services took) mount.handler⟩).or
        (Router.routeAt probeRoutes template method) := by
  rw [← routeAt_layered]
  simp only [Router.routeAt, Router.atTemplate, routes, List.filter_append, List.find?_append]

theorem operationFor?_inbound {registry : Registry (Handler σ)} {request : Http.Request}
    {mount : Mount (Handler σ)} {inbound : Inbound}
    (requested : operationFor? registry request = some (mount, inbound)) :
    ∃ m, matched? registry request.uri.path = some m ∧ inbound = inboundOf request m ∧
      mountFor? registry m.template request.method = some mount := by
  unfold operationFor? at requested
  split at requested
  · exact absurd requested (by simp)
  · obtain ⟨m, matched, rest⟩ := Option.bind_eq_some_iff.mp requested
    obtain ⟨filed, found, same⟩ := Option.map_eq_some_iff.mp rest
    obtain ⟨rfl, rfl⟩ := Prod.mk.inj same
    exact ⟨m, matched, rfl, found⟩

theorem mem_mountFor? {registry : Registry (Handler σ)} {template : String} {method : Http.Method}
    {mount : Mount (Handler σ)} (found : mountFor? registry template method = some mount) :
    mount ∈ registry.handlers ∧ mount.path = template ∧
      Router.servesMethod mount.method method = true := by
  have here := List.find?_some found
  simp only [Bool.and_eq_true, beq_iff_eq] at here
  exact ⟨List.mem_of_find?_eq_some found, here.1, here.2⟩

theorem operationOf_requested {testing : Bool} {entries : List (Entry (Handler σ))}
    {registry : Registry (Handler σ)} (built : Built testing entries registry)
    {request : Http.Request} {mount : Mount (Handler σ)} {inbound : Inbound}
    (requested : operationFor? registry request = some (mount, inbound)) :
    ∃ e ∈ entries, e.mount = mount ∧ operationOf registry.table inbound = some e.descriptor := by
  obtain ⟨m, _, rfl, found⟩ := operationFor?_inbound requested
  obtain ⟨filed, path, method⟩ := mem_mountFor? found
  exact operationOf_mount built filed path.symm method

theorem operationFor?_noting (registry : Registry (Handler σ)) (request : Http.Request) :
    operationFor? (notingRegistry registry) request =
      (operationFor? registry request).map fun (mount, inbound) =>
        (notingMount mount, inbound) := by
  have matches_same : matched? (notingRegistry registry) request.uri.path =
      matched? registry request.uri.path := by
    simp only [matched?_eq, notingRegistry, List.map_map]
    rfl
  have mounts_same (template : String) :
      mountFor? (notingRegistry registry) template request.method =
        (mountFor? registry template request.method).map notingMount := by
    simp only [mountFor?, notingRegistry, List.find?_map]
    rfl
  unfold operationFor?
  split
  · rfl
  · rw [matches_same]
    cases matched? registry request.uri.path with
    | none => rfl
    | some m =>
      simp only [Option.bind_some, mounts_same, Option.map_map]
      rfl

theorem compress_eq (request : Http.Request) (r : Http.Response) :
    ∃ more, compress request r = { r with headers := r.headers ++ more } := by
  unfold compress
  split
  · exact ⟨[], by rw [List.append_nil]⟩
  · cases Http.preferredCoding request.headers with
    | gzip =>
      refine ⟨[.ofText "vary" "accept-encoding", .ofText "content-encoding" "gzip"], ?_⟩
      simp only [Http.Response.addHeader, List.append_assoc, List.singleton_append]
    | identity => exact ⟨[.ofText "vary" "accept-encoding"], rfl⟩

theorem finished_eq (request : Http.Request) (r : Http.Response) :
    ∃ more, finished request r = withoutBody request { r with headers := r.headers ++ more } := by
  obtain ⟨more, compressed⟩ := compress_eq request r
  refine ⟨more ++ [.ofText "vary" originVary, .ofText "access-control-allow-origin" "*"], ?_⟩
  simp only [finished, compressed, openToOrigins, Http.Response.addHeader, List.append_assoc,
    List.singleton_append]

theorem withoutBody_status (request : Http.Request) (r : Http.Response) :
    (withoutBody request r).status = r.status := by
  unfold withoutBody
  split <;> rfl

theorem withoutBody_headers (request : Http.Request) (r : Http.Response) :
    (withoutBody request r).headers = r.headers := by
  unfold withoutBody
  split <;> rfl

theorem withoutBody_body (request : Http.Request) (r : Http.Response) :
    (withoutBody request r).body = if request.method = .head then "" else r.body := by
  unfold withoutBody
  split <;> rfl

theorem finished_status (request : Http.Request) (r : Http.Response) :
    (finished request r).status = r.status := by
  obtain ⟨more, shown⟩ := finished_eq request r
  rw [shown, withoutBody_status]

theorem finished_body (request : Http.Request) (r : Http.Response) :
    (finished request r).body = if request.method = .head then "" else r.body := by
  obtain ⟨more, shown⟩ := finished_eq request r
  rw [shown, withoutBody_body]

theorem serve_dispatched (registry : Registry (Handler σ)) (services : Services σ)
    (took : Durations) {request : Http.Request} (asks : request.method ≠ .options) (site : Site σ) :
    serve registry services took request site =
      let (r, site) := Router.dispatch (routes registry services took)
        { Extensions.none with cancelled := some false } request site
      (finished request r, site) := by
  simp only [serve, answer_eq, if_neg asks, finished]

theorem serve_operation {registry : Registry (Handler σ)} {request : Http.Request}
    {mount : Mount (Handler σ)} {inbound : Inbound}
    (requested : operationFor? registry request = some (mount, inbound)) (services : Services σ)
    (took : Durations) (site : Site σ) :
    serve registry services took request site =
      let (r, site) := (Step.all registry.table services took).layer mount.handler inbound site
      (finished request r, site) := by
  obtain ⟨m, matched, rfl, found⟩ := operationFor?_inbound requested
  have asks : request.method ≠ .options := by
    intro options
    rw [operationFor?, if_pos options] at requested
    exact absurd requested (by simp)
  rw [serve_dispatched registry services took asks]
  simp only [Router.dispatch, findTemplate_routes, matched, routeAt_routes, found,
    Option.map_some, Option.some_or, Step.operationLayers_eq]
  rfl

theorem probe_quiet {r : Route σ} (probe : r ∈ probeRoutes) (inbound : Inbound) (site : Site σ) :
    (r.handler inbound site).2 = site := by
  simp only [probeRoutes, List.mem_cons, List.not_mem_nil, or_false] at probe
  rcases probe with rfl | rfl | rfl | rfl <;> rfl

theorem serve_elsewhere {registry : Registry (Handler σ)} {request : Http.Request}
    (elsewhere : operationFor? registry request = none) (services : Services σ)
    (took : Durations) (site : Site σ) :
    (serve registry services took request site).2 = site := by
  by_cases asks : request.method = .options
  · simp only [serve, answer_eq, if_pos asks]
  · rw [serve_dispatched registry services took asks]
    simp only [operationFor?, if_neg asks] at elsewhere
    simp only [Router.dispatch, findTemplate_routes, routeAt_routes]
    cases matched : matched? registry request.uri.path with
    | none => rfl
    | some m =>
      have unfiled : mountFor? registry m.template request.method = none := by
        rw [matched, Option.bind_some, Option.map_eq_none_iff] at elsewhere
        exact elsewhere
      simp only [unfiled, Option.map_none, Option.none_or]
      cases found : Router.routeAt (probeRoutes (σ := σ)) m.template request.method with
      | none => rfl
      | some r => exact probe_quiet (mem_routeAt found).1 _ site

end Host

theorem servedEvents_operation {registry : Registry (Handler σ)} {request : Http.Request}
    {mount : Mount (Handler σ)} {inbound : Inbound}
    (requested : Host.operationFor? registry request = some (mount, inbound))
    (services : Services σ) (took : Durations) (site : Site σ) :
    servedEvents registry services took request site =
      ((Step.all registry.table services.noting took).layer (notingHandler mount.handler) inbound
        site.noting).2.services.events := by
  have noted : Host.operationFor? (notingRegistry registry) request =
      some (notingMount mount, inbound) := by
    rw [Host.operationFor?_noting, requested]
    rfl
  rw [servedEvents, Host.serve_operation noted]
  rfl

theorem servedEvents_elsewhere {registry : Registry (Handler σ)} {request : Http.Request}
    (elsewhere : Host.operationFor? registry request = none) (services : Services σ)
    (took : Durations) (site : Site σ) : servedEvents registry services took request site = [] := by
  have noted : Host.operationFor? (notingRegistry registry) request = none := by
    rw [Host.operationFor?_noting, elsewhere]
    rfl
  rw [servedEvents, Host.serve_elsewhere noted]
  rfl

end TenantGate.Gate
