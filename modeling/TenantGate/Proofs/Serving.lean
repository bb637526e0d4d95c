import TenantGate.Proofs.Layers

/-!
What happens while one request is served: which calls the steps make before the handler, and that
the handler comes last and once. For a handler that is reached, the notes tell how the request came
to it.
-/
namespace TenantGate.Gate

open Api Telemetry

variable {σ : Type}

theorem callerOf_asks (introspect : String → Call σ Auth.Introspection)
    (headers : List Http.Header) (site : Site σ) :
    (callerOf introspect headers site).2 = site ∨
      ∃ token, (callerOf introspect headers site).2 =
        site.putServices (introspect token site.services).2 := by
  unfold callerOf
  cases Auth.bearerToken (Http.firstText? headers "authorization") with
  | error f => exact .inl rfl
  | ok token? =>
    cases token? with
    | none => exact .inl rfl
    | some token =>
      refine .inr ⟨token, ?_⟩
      simp only [Call.ofExcept, Call.bind_eq, Call.andThen, Call.done, Call.onPart]
      cases (introspect token site.services).1 with
      | error f => rfl
      | ok verdict =>
        simp only
        cases verdict.callerId <;> rfl

theorem callerOf_noted (services : Services σ) (headers : List Http.Header)
    (site : Site (Noted σ)) :
    ∃ asked,
      (callerOf services.noting.introspect headers site).2.services.events =
        site.services.events ++ asked ∧
      asked.filter Event.isMemberships = [] ∧ asked.filter Event.isHandling = [] := by
  rcases callerOf_asks services.noting.introspect headers site with same | ⟨token, once⟩
  · rw [same]
    exact ⟨[], (List.append_nil _).symm, rfl, rfl⟩
  · rw [once]
    exact ⟨_, rfl, rfl, rfl⟩

theorem resolve_noted {table : RouteTable} {inbound : Inbound} {d : Descriptor}
    (found : operationOf table inbound = some d) (services : Services σ) (took : Durations)
    (site : Site (Noted σ)) :
    ∃ made,
      (Step.resolve table services.noting took inbound site).2.services.events =
        site.services.events ++ made ∧
      Resolver.Decides services.isValid
        (Resolver.answersOf services.toCollaborators inbound.extensions.callerOrAnonymous
          inbound.extensions.isCancelled site.services.state)
        inbound.extensions.callerOrAnonymous (detectionOf d inbound) made
        (decideTenancy services.noting took d inbound site).1 := by
  rw [Step.resolve_found found, Step.settle_services]
  exact Resolver.resolve_decides services.toCollaborators took inbound.extensions.callerOrAnonymous
    inbound.extensions.isCancelled (site.count .requestsInspected) services.isValid
    (detectionOf d inbound)

namespace Step

/-- The step itself runs no handler. -/
def Quiet (step : Step (Noted σ)) : Prop :=
  ∀ inbound site, (step inbound site).2.services.events.filter Event.isHandling =
    site.services.events.filter Event.isHandling

theorem quiet_andThen {first second : Step (Noted σ)} (quiet : Quiet first)
    (quiet' : Quiet second) : Quiet (first.andThen second) := by
  intro inbound site
  have start := quiet inbound site
  simp only [andThen]
  rcases stepped : first inbound site with ⟨response | i, s⟩
  · rw [stepped] at start
    exact start
  · rw [stepped] at start
    exact (quiet' i s).trans start

theorem quiet_identify (services : Services σ) : Quiet (identify services.noting.introspect) := by
  intro inbound site
  obtain ⟨asked, noted, _, silent⟩ := callerOf_noted services inbound.request.headers site
  have same : (identify services.noting.introspect inbound site).2 =
      (callerOf services.noting.introspect inbound.request.headers site).2 := by
    simp only [identify]
    rcases callerOf services.noting.introspect inbound.request.headers site with ⟨_ | _, _⟩ <;> rfl
  rw [same, noted, List.filter_append, silent, List.append_nil]

theorem quiet_allow (table : RouteTable) : Quiet (allow table : Step (Noted σ)) := by
  intro inbound site
  simp only [allow]
  split
  · split <;> rfl
  · rfl

theorem quiet_resolve (table : RouteTable) (services : Services σ) (took : Durations) :
    Quiet (resolve table services.noting took) := by
  intro inbound site
  cases found : operationOf table inbound with
  | none => simp only [resolve, found]
  | some d =>
    obtain ⟨made, noted, rule⟩ := resolve_noted found services took site
    rw [noted, List.filter_append, Resolver.no_handling_of_decides rule, List.append_nil]

theorem quiet_all (table : RouteTable) (services : Services σ) (took : Durations) :
    Quiet (all table services.noting took) :=
  quiet_andThen (quiet_identify services)
    (quiet_andThen (quiet_allow table) (quiet_resolve table services took))

end Step

theorem mem_routeAt {routes : List (Route σ)} {template : String} {method : Http.Method}
    {r : Route σ} (found : Router.routeAt routes template method = some r) :
    r ∈ routes ∧ r.template = template ∧ Router.servesMethod r.method method = true := by
  obtain ⟨member, here⟩ := List.mem_filter.mp (List.mem_of_find?_eq_some found)
  have served := List.find?_some (p := fun r : Route σ => Router.servesMethod r.method method) found
  exact ⟨member, beq_iff_eq.mp here, served⟩

/-- What happens while a host serves a request that finds it in the given state. The host that takes
the notes answers as the host itself does: `noting_serve`. -/
def servedEvents (registry : Registry (Handler σ)) (services : Services σ) (took : Durations)
    (request : Http.Request) (site : Site σ) : List Event :=
  (Host.serve (notingRegistry registry) services.noting took request
    site.noting).2.services.events

structure Routed (mount : Mount (Handler σ)) (request : Http.Request) (inbound : Inbound) : Prop where
  same : inbound.request = request
  path : inbound.template = mount.path
  method : Router.servesMethod mount.method request.method = true
  fresh : inbound.extensions = { Extensions.none with cancelled := some false }

theorem layered_handling (table : RouteTable) (services : Services σ) (took : Durations)
    (handler : Handler σ) (inbound : Inbound) (site : Site σ) :
    (wrapAll (Host.operationLayers table services.noting took) (notingHandler handler) inbound
        site.noting).2.services.events.filter Event.isHandling = [] ∨
      ∃ inbound' after,
        Step.all table services.noting took inbound site.noting = (.ok inbound', after) ∧
        after.services.events.filter Event.isHandling = [] ∧
        (wrapAll (Host.operationLayers table services.noting took) (notingHandler handler) inbound
          site.noting).2.services.events = after.services.events ++ [.handling inbound'] := by
  have quiet := Step.quiet_all table services took inbound site.noting
  simp only [Step.operationLayers_eq, Step.layer]
  rcases stepped : Step.all table services.noting took inbound site.noting with
    ⟨response | inbound', after⟩
  · rw [stepped] at quiet
    exact .inl quiet
  · rw [stepped] at quiet
    exact .inr ⟨inbound', after, rfl, quiet, rfl⟩

/-- At most one handler is run, and nothing happens after it. Before it the steps to the operation
were taken. -/
theorem served_handling (registry : Registry (Handler σ)) (services : Services σ)
    (took : Durations) (request : Http.Request) (site : Site σ) :
    (servedEvents registry services took request site).filter Event.isHandling = [] ∨
      ∃ mount ∈ registry.handlers, ∃ inbound inbound' after,
        Routed mount request inbound ∧
        Step.all registry.table services.noting took inbound site.noting = (.ok inbound', after) ∧
        servedEvents registry services took request site =
          after.services.events ++ [.handling inbound'] ∧
        (servedEvents registry services took request site).filter Event.isHandling =
          [.handling inbound'] := by
  simp only [servedEvents, Host.serve, Host.answer_eq]
  split
  · exact .inl rfl
  · simp only [Router.dispatch]
    cases Router.findTemplate (Host.routes (notingRegistry registry) services.noting took)
      request.uri.path with
    | none => exact .inl rfl
    | some m =>
      simp only
      cases found : Router.routeAt (Host.routes (notingRegistry registry) services.noting took)
        m.template request.method with
      | none => exact .inl rfl
      | some r =>
        obtain ⟨member, here, served⟩ := mem_routeAt found
        -- Probes stand outside the layers and touch no service, so they leave no notes.
        rcases List.mem_append.mp member with layered | probe
        · obtain ⟨_, filed, rfl⟩ := List.mem_map.mp layered
          obtain ⟨mount, registered, rfl⟩ := List.mem_map.mp filed
          rcases layered_handling registry.table services took mount.handler
            ⟨request, m.template, Http.decodeValues m.values,
              { Extensions.none with cancelled := some false }⟩ site with
            none | ⟨inbound', after, stepped, quiet, events⟩
          · exact .inl none
          · refine .inr ⟨mount, registered, _, inbound', after, ⟨rfl, here.symm, served, rfl⟩,
              stepped, events, ?_⟩
            refine (congrArg (List.filter Event.isHandling) events).trans ?_
            rw [List.filter_append, quiet]
            rfl
        · left
          simp only [Host.probeRoutes, List.mem_cons, List.not_mem_nil, or_false] at probe
          rcases probe with rfl | rfl | rfl | rfl <;> rfl

def hostRegistry : Registry (Handler Unit) :=
  ⟨⟨(keptEntries false (operations : List (Entry (Handler Unit)))).map Entry.descriptor⟩,
    (keptEntries false operations).map Entry.mount⟩

/-- Services to which every user is a member of one organization, and every token a user. -/
def memberServices : Services Unit where
  memberships _ c _ := .done ⟨c, [⟨"m1", c, "org1", false⟩]⟩
  settings _ _ _ := .done .empty
  introspect token := .done (.ofSubject token)
  isValid _ := true

def freshSite : Site Unit := ⟨.zero, .start, "", ()⟩

end TenantGate.Gate
