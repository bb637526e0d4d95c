import TenantGate.Proofs.SettingsRoute

/-!
The probes of a host. Whatever operations are registered, a path of a probe is no path of theirs,
and the probe answers from what the site shows, without any layer.
-/
namespace TenantGate.Gate

open Api Http

variable {σ : Type}

namespace Host

def probeMatch (template : String) : Router.Match := ⟨template, patternOf template, []⟩

theorem probeMatch_template (template : String) : (probeMatch template).template = template := rfl

/-- The paths of operations and probes differ, and of their patterns a probe's path fits its own
alone. -/
theorem templates_apart : ∀ testing : Bool,
    (operationTemplates testing ++ probeTemplates).Nodup ∧
      ∀ template ∈ probeTemplates,
        matchSegments (patternOf template) (splitPath (Utf8.encode template)) = some [] ∧
          ∀ other ∈ operationTemplates testing ++ probeTemplates, other ≠ template →
            matchSegments (patternOf other) (splitPath (Utf8.encode template)) = none := by
  decide +kernel

theorem matchTemplate_probe {template : String} (probe : template ∈ probeTemplates) :
    Router.matchTemplate (Utf8.encode template) template = some (probeMatch template) := by
  rw [Router.matchTemplate, ((templates_apart false).2 template probe).1]
  rfl

theorem matchTemplate_other {testing : Bool} {template other : String}
    (probe : template ∈ probeTemplates)
    (listed : other ∈ operationTemplates testing ++ probeTemplates) (different : other ≠ template) :
    Router.matchTemplate (Utf8.encode template) other = none := by
  rw [Router.matchTemplate, ((templates_apart testing).2 template probe).2 other listed different]
  rfl

theorem filterMap_sole {α β : Type} {f : α → Option β} {l : List α} {a : α} {b : β}
    (distinct : l.Nodup) (member : a ∈ l) (found : f a = some b)
    (others : ∀ other ∈ l, other ≠ a → f other = none) : l.filterMap f = [b] := by
  obtain ⟨before, behind, rfl⟩ := List.append_of_mem member
  rw [List.nodup_append, List.nodup_cons] at distinct
  obtain ⟨_, ⟨notBehind, _⟩, apart⟩ := distinct
  have none_before : before.filterMap f = [] := by
    rw [List.filterMap_eq_nil_iff]
    intro other among
    exact others other (List.mem_append_left _ among) (apart other among a List.mem_cons_self)
  have none_behind : behind.filterMap f = [] := by
    rw [List.filterMap_eq_nil_iff]
    intro other among
    exact others other (List.mem_append_right _ (List.mem_cons_of_mem _ among))
      fun same => notBehind (same ▸ among)
  rw [List.filterMap_append, none_before, List.filterMap_cons, found, none_behind]
  rfl

section Registered

variable {testing : Bool} {registry : Registry (Handler σ)}
  (registered : registeredOperations testing = .ok registry)
include registered

theorem matched?_probe {template : String} (probe : template ∈ probeTemplates) :
    matched? registry (Utf8.encode template) = some (probeMatch template) := by
  have sole := filterMap_sole (templates_apart testing).1 (List.mem_append_right _ probe)
    (matchTemplate_probe probe) fun _ listed different => matchTemplate_other probe listed different
  rw [matched?_eq, templates_registered registered, sole]
  rfl

theorem mountFor?_probe {template : String} (probe : template ∈ probeTemplates)
    (method : Method) : mountFor? registry template method = none := by
  have apart := (List.nodup_append.mp (templates_apart testing).1).2.2
  rw [mountFor?, List.find?_eq_none]
  intro mount filed served
  have path : mount.path ∈ operationTemplates testing := by
    rw [← templates_registered registered]
    exact List.mem_map_of_mem filed
  simp only [Bool.and_eq_true, beq_iff_eq] at served
  exact apart _ path template probe served.1

theorem serve_probe {request : Request} {r : Route σ} (probe : r ∈ probeRoutes)
    (asks : request.method = .get) (path : request.uri.path = Utf8.encode r.template)
    (services : Services σ) (took : Durations) (site : Site σ) :
    serve registry services took request site =
      (finished request (r.handler (inboundOf request (probeMatch r.template)) site).1, site) := by
  have listed : r.template ∈ probeTemplates := List.mem_map_of_mem (f := Route.template) probe
  have found : Router.routeAt (probeRoutes (σ := σ)) r.template request.method = some r := by
    rw [asks]
    simp only [probeRoutes, List.mem_cons, List.not_mem_nil, or_false] at probe
    rcases probe with rfl | rfl | rfl | rfl <;> rfl
  have quiet := probe_quiet probe (inboundOf request (probeMatch r.template)) site
  have route :
      Router.routeAt (routes registry services took) r.template request.method = some r := by
    rw [routeAt_routes, mountFor?_probe registered listed, Option.map_none, Option.none_or, found]
  rw [serve_dispatched registry services took (by rw [asks]; decide)]
  simp only [Router.dispatch, findTemplate_routes, path, matched?_probe registered listed,
    probeMatch_template, route]
  exact Prod.ext rfl quiet

end Registered

section Answers

variable {testing : Bool} {registry : Registry (Handler σ)} {request : Request}

theorem ready_status (registered : registeredOperations testing = .ok registry)
    (asks : request.method = .get) (path : request.uri.path = Utf8.encode "/health/ready")
    (services : Services σ) (took : Durations) (site : Site σ) :
    (serve registry services took request site).1.status =
      if site.health.isReady then .ok else .serviceUnavailable := by
  have served := serve_probe registered (r := ⟨"/health/ready", .get, Handlers.ready⟩)
    (List.mem_cons_of_mem _ List.mem_cons_self) asks path services took site
  rw [served, finished_status]
  rfl

theorem health_answer (registered : registeredOperations testing = .ok registry)
    (asks : request.method = .get) (path : request.uri.path = Utf8.encode "/health")
    (services : Services σ) (took : Durations) (site : Site σ) :
    (serve registry services took request site).1.status = .ok ∧
      (serve registry services took request site).1.body =
        Telemetry.HealthBody.format.write (.ofState site.health site.metrics) := by
  have served := serve_probe registered (r := ⟨"/health", .get, Handlers.health⟩)
    List.mem_cons_self asks path services took site
  rw [served, finished_status, finished_body, if_neg (by rw [asks]; decide)]
  exact ⟨rfl, rfl⟩

end Answers

end Host

end TenantGate.Gate
