import TenantGate.Proofs.AskedAlike
import TenantGate.Proofs.Runs

/-!
`HEAD` beside `GET`. On the path of an operation that is asked for with `GET`, a request with `HEAD`
passes the same steps, has the same calls made, leaves the same behind and is answered alike, but
for the body. On other paths it runs nothing.
-/
namespace TenantGate.Gate

open Api

variable {σ : Type}

/-- The handler makes no difference between a request with `GET` and the same one with `HEAD`. -/
def MethodBlind (handler : Handler σ) : Prop :=
  ∀ inbound site, inbound.request.method = .get →
    handler (inbound.withRequest { inbound.request with method := .head }) site =
      handler inbound site

/-- All that happens for a request, had it come with `HEAD`. -/
def Event.asHead : Event → Event
  | .handling inbound =>
    .handling (inbound.withRequest { inbound.request with method := .head })
  | x => x

theorem asHead_of_quiet {events : List Event} (quiet : events.filter Event.isHandling = []) :
    events.map Event.asHead = events := by
  induction events with
  | nil => rfl
  | cons x rest ih =>
    rw [List.filter_cons] at quiet
    cases x with
    | handling inbound => exact absurd quiet (by simp [Event.isHandling])
    | introspection token answer =>
      rw [List.map_cons, ih quiet]
      rfl
    | memberships caller userId answer =>
      rw [List.map_cons, ih quiet]
      rfl
    | settings caller tenantId answer =>
      rw [List.map_cons, ih quiet]
      rfl

theorem askedAlike_head {request : Http.Request} (asks : request.method = .get) :
    AskedAlike { request with method := .head } request := by
  refine ⟨rfl, rfl, ?_⟩
  rw [asks]
  rfl

theorem operations_methodBlind : ∀ e ∈ (operations : List (Entry (Handler σ))),
    MethodBlind e.handler := by
  intro e member inbound site _
  rcases List.mem_cons.mp member with rfl | member
  · rfl
  rcases List.mem_cons.mp member with rfl | member
  · rfl
  rcases List.mem_cons.mp member with rfl | member
  · rfl
  rcases List.mem_singleton.mp member with rfl
  rfl

namespace Host

theorem finished_head {request : Http.Request} (asks : request.method = .get) (r : Http.Response) :
    finished { request with method := .head } r = { finished request r with body := "" } := by
  have kept : ¬ request.method = .head := by
    rw [asks]
    decide
  simp only [finished, withoutBody, if_neg kept, ↓reduceIte]
  rfl

end Host

section Requested

variable {testing : Bool} {entries : List (Entry (Handler σ))} {registry : Registry (Handler σ)}
  {request : Http.Request} {mount : Mount (Handler σ)} {inbound : Inbound}

theorem requested_head (built : Built testing entries registry) (asks : request.method = .get)
    (requested : Host.operationFor? registry request = some (mount, inbound)) :
    Host.operationFor? registry { request with method := .head } =
      some (mount, inbound.withRequest { request with method := .head }) := by
  rw [operationFor?_of_alike built (askedAlike_head asks), requested]
  rfl

theorem all_head (asks : request.method = .get) (same : inbound.request = request)
    (table : RouteTable) (services : Services σ) (took : Durations) (site : Site σ) :
    Step.all table services took (inbound.withRequest { request with method := .head }) site =
      ((Step.all table services took inbound site).1.map
          (·.withRequest { request with method := .head }),
        (Step.all table services took inbound site).2) := by
  have alike : AskedAlike { request with method := .head } inbound.request := by
    rw [same]
    exact askedAlike_head asks
  exact (Step.follows_all table services took).alike inbound _ site alike

theorem serve_head (built : Built testing entries registry) (asks : request.method = .get)
    (requested : Host.operationFor? registry request = some (mount, inbound))
    (blind : MethodBlind mount.handler) (services : Services σ) (took : Durations)
    (site : Site σ) :
    Host.serve registry services took { request with method := .head } site =
      ({ (Host.serve registry services took request site).1 with body := "" },
        (Host.serve registry services took request site).2) := by
  obtain ⟨m, _, routed, _⟩ := Host.operationFor?_inbound requested
  have same : inbound.request = request := by
    rw [routed]
    rfl
  rw [Host.serve_operation (requested_head built asks requested) services took site,
    Host.serve_operation requested services took site]
  simp only [Step.layer, all_head asks same]
  rcases stepped : Step.all registry.table services took inbound site with
    ⟨response | inbound', after⟩
  · simp only [Except.map, Host.finished_head asks]
  · have kept : inbound'.request = request :=
      ((Step.follows_all registry.table services took).kept _ _ _ _ stepped).trans same
    have handled := blind inbound' after (kept ▸ asks)
    rw [kept] at handled
    simp only [Except.map, handled, Host.finished_head asks]

theorem servedEvents_head (built : Built testing entries registry) (asks : request.method = .get)
    (requested : Host.operationFor? registry request = some (mount, inbound))
    (services : Services σ) (took : Durations) (site : Site σ) :
    servedEvents registry services took { request with method := .head } site =
      (servedEvents registry services took request site).map Event.asHead := by
  obtain ⟨m, _, routed, _⟩ := Host.operationFor?_inbound requested
  have same : inbound.request = request := by
    rw [routed]
    rfl
  have quiet := Step.quiet_all registry.table services took inbound site.noting
  rw [servedEvents_operation (requested_head built asks requested) services took site,
    servedEvents_operation requested services took site]
  simp only [Step.layer, all_head asks same]
  rcases stepped : Step.all registry.table services.noting took inbound site.noting with
    ⟨response | inbound', after⟩
  · rw [stepped] at quiet
    exact (asHead_of_quiet quiet).symm
  · rw [stepped] at quiet
    have kept : inbound'.request = request :=
      ((Step.follows_all registry.table services.noting took).kept _ _ _ _ stepped).trans same
    simp only [Except.map, notingHandler, Site.withServices, List.map_append,
      asHead_of_quiet quiet, List.map_cons, List.map_nil, Event.asHead, kept]

theorem get_of_head (built : Built testing entries registry) (asks : request.method = .head)
    (requested : Host.operationFor? registry request = some (mount, inbound)) :
    ∃ e ∈ keptEntries testing entries, e.mount = mount ∧ e.contract.method = .get ∧
      ∃ m, Host.matched? registry request.uri.path = some m ∧ m.template = e.contract.path := by
  obtain ⟨m, matched, _, found⟩ := Host.operationFor?_inbound requested
  obtain ⟨filed, path, served⟩ := Host.mem_mountFor? found
  rw [built.handlers] at filed
  obtain ⟨e, kept, rfl⟩ := List.mem_map.mp filed
  refine ⟨e, kept, rfl, ?_, m, matched, path.symm⟩
  rw [asks] at served
  have looked : e.contract.method.toMethod = .get := by
    rw [Entry.mount, servesMethod_methodFilter] at served
    exact beq_iff_eq.mp served
  exact toMethod_injective looked

end Requested

/-- A request with `HEAD` for an operation that is asked for with `GET` is served like the one with
`GET`: the same steps, calls, counters and memories, and the same answer without its body. On a path
whose operations have other methods `HEAD` runs no handler and changes nothing. -/
theorem head_is_served_like_get {testing : Bool} {entries : List (Entry (Handler σ))}
    {registry : Registry (Handler σ)}
    (registered : Registry.empty.registerAll testing entries = .ok registry)
    (services : Services σ) (took : Durations) :
    (∀ request mount inbound, request.method = .get →
      Host.operationFor? registry request = some (mount, inbound) → ∀ site,
        servedEvents registry services took { request with method := .head } site =
            (servedEvents registry services took request site).map Event.asHead ∧
          (MethodBlind mount.handler →
            Host.serve registry services took { request with method := .head } site =
              ({ (Host.serve registry services took request site).1 with body := "" },
                (Host.serve registry services took request site).2))) ∧
    (∀ e ∈ (operations : List (Entry (Handler σ))), MethodBlind e.handler) ∧
    ∀ request, request.method = .head →
      (∀ e ∈ entries, e.isKept testing = true → e.contract.method = .get →
        ∀ m, Host.matched? registry request.uri.path = some m → m.template ≠ e.contract.path) →
      ∀ site, servedEvents registry services took request site = [] ∧
        (Host.serve registry services took request site).2 = site := by
  have built : Built testing entries registry := Built.empty.registerAll registered
  refine ⟨?_, operations_methodBlind, ?_⟩
  · intro request mount inbound asks requested site
    refine ⟨servedEvents_head built asks requested services took site, ?_⟩
    intro blind
    exact serve_head built asks requested blind services took site
  · intro request asks free site
    have elsewhere : Host.operationFor? registry request = none := by
      by_contra something
      obtain ⟨⟨mount, inbound⟩, requested⟩ := Option.ne_none_iff_exists'.mp something
      obtain ⟨e, kept, _, get, m, matched, path⟩ := get_of_head built asks requested
      obtain ⟨member, isKept⟩ := List.mem_filter.mp kept
      exact free e member isKept get m matched path
    exact ⟨servedEvents_elsewhere elsewhere services took site,
      Host.serve_elsewhere elsewhere services took site⟩

/-- With `HEAD` the member gets the status of the answer after the same three calls. On the path of
the crash reports, which are sent with `POST`, nothing is run. -/
theorem member_head_is_served_like_get :
    Registry.empty.registerAll false operations = .ok hostRegistry ∧
      (Host.serve hostRegistry memberServices .instant { memberVisit.request with method := .head }
        freshSite).1.status = .ok ∧
      (servedEvents hostRegistry memberServices .instant { memberVisit.request with method := .head }
        freshSite).length = 4 ∧
      servedEvents hostRegistry memberServices .instant
        ⟨.head, ⟨Utf8.encode "/record/crash", none⟩, [], []⟩ freshSite = [] := by
  have registered : Registry.empty.registerAll false operations = .ok hostRegistry := rfl
  have isFor : (Host.operationFor? hostRegistry memberVisit.request).isSome = true := by decide +kernel
  obtain ⟨⟨mount, inbound⟩, requested⟩ := Option.isSome_iff_exists.mp isFor
  obtain ⟨like, blind, other⟩ := head_is_served_like_get registered memberServices .instant
  obtain ⟨events, served⟩ := like memberVisit.request mount inbound rfl requested freshSite
  obtain ⟨e, member, rfl, _⟩ :=
    Host.operationOf_requested (Built.empty.registerAll registered) requested
  refine ⟨registered, ?_, ?_, ?_⟩
  · rw [served (blind e member)]
    decide +kernel
  · rw [events, List.length_map]
    decide +kernel
  · have matched : (Host.matched? hostRegistry (Utf8.encode "/record/crash")).map (·.template) =
        some "/record/crash" := by decide +kernel
    refine (other _ rfl ?_ freshSite).1
    intro e member _ get m found path
    rw [found, Option.map_some, Option.some.injEq, path] at matched
    rcases List.mem_cons.mp member with rfl | member
    · exact absurd get (by decide)
    rcases List.mem_cons.mp member with rfl | member
    · exact absurd matched (by decide)
    rcases List.mem_cons.mp member with rfl | member
    · exact absurd matched (by decide)
    rcases List.mem_singleton.mp member with rfl
    exact absurd matched (by decide)

end TenantGate.Gate
