import Mathlib.Data.List.Forall2
import TenantGate.Gate.Host

/-!
Hosts over two kinds of services that are related state by state. When related services answer
alike, so do the hosts around them, and what they leave behind is related again. A host that only
takes notes, a property that no service call breaks, and two hosts that differ in what their
services remember are all compared by a choice of the relation. The services may even fail in
different ways; where these are related, the hosts give the same answers but for the problems of
such failures.
-/
namespace TenantGate

open Gate Telemetry

variable {σ τ α β : Type} {R : τ → σ → Prop} {F : Failure → Failure → Prop}

structure Failure.Kinship (F : Failure → Failure → Prop) : Prop where
  self : ∀ f, F f f
  cancelled : ∀ f f', F f f' → f.isCancelled = f'.isCancelled

theorem Failure.kinship_eq : Kinship Eq :=
  ⟨fun _ => rfl, fun _ _ same => congrArg isCancelled same⟩

inductive AnswersAkin (F : Failure → Failure → Prop) :
    Except Failure α → Except Failure α → Prop where
  | ok (a : α) : AnswersAkin F (.ok a) (.ok a)
  | error {f f' : Failure} (akin : F f f') : AnswersAkin F (.error f) (.error f')

theorem answersAkin_eq_iff {answer answer' : Except Failure α} :
    AnswersAkin Eq answer answer' ↔ answer = answer' := by
  constructor
  · intro akin
    cases akin with
    | ok a => rfl
    | error same => exact congrArg Except.error same
  · rintro rfl
    cases answer with
    | ok a => exact .ok a
    | error f => exact .error rfl

namespace Call

def Alike (R : τ → σ → Prop) (first : Call τ α) (second : Call σ α) : Prop :=
  ∀ t s, R t s → (first t).1 = (second s).1 ∧ R (first t).2 (second s).2

/-- The same, up to related failures. -/
def Akin (F : Failure → Failure → Prop) (R : τ → σ → Prop) (first : Call τ α)
    (second : Call σ α) : Prop :=
  ∀ t s, R t s → AnswersAkin F (first t).1 (second s).1 ∧ R (first t).2 (second s).2

theorem akin_eq_iff {first : Call τ α} {second : Call σ α} :
    Akin Eq R first second ↔ Alike R first second := by
  simp only [Akin, Alike, answersAkin_eq_iff]

theorem akin_done (a : α) : Akin F R (done a) (done a) := fun _ _ related => ⟨.ok a, related⟩

theorem akin_ofExcept (kin : Failure.Kinship F) (result : Except Failure α) :
    Akin F R (ofExcept result) (ofExcept result) := by
  cases result with
  | ok a => exact akin_done a
  | error f => exact fun _ _ related => ⟨.error (kin.self f), related⟩

theorem akin_change {f : τ → τ} {g : σ → σ} (kept : ∀ t s, R t s → R (f t) (g s)) :
    Akin F R (change f) (change g) := fun t s related => ⟨.ok (), kept t s related⟩

theorem akin_bind {first : Call τ α} {second : Call σ α} {next : α → Call τ β}
    {next' : α → Call σ β} (start : Akin F R first second)
    (rest : ∀ a, Akin F R (next a) (next' a)) : Akin F R (first >>= next) (second >>= next') := by
  intro t s related
  obtain ⟨akin, behind⟩ := start t s related
  simp only [bind_eq, andThen]
  generalize first t = x at akin behind ⊢
  generalize second s = y at akin behind ⊢
  obtain ⟨result, t⟩ := x
  obtain ⟨result', s⟩ := y
  cases akin with
  | ok a => exact rest a t s behind
  | error akin => exact ⟨.error akin, behind⟩

end Call

structure Gate.Site.Alike (R : τ → σ → Prop) (first : Site τ) (second : Site σ) : Prop where
  metrics : first.metrics = second.metrics
  health : first.health = second.health
  now : first.now = second.now
  services : R first.services second.services

namespace Gate.Site

theorem alike_count {t : Site τ} {s : Site σ} (related : Alike R t s) (c : Counter) :
    Alike R (t.count c) (s.count c) :=
  ⟨by simp only [count, related.metrics], related.health, related.now, related.services⟩

theorem alike_observe {t : Site τ} {s : Site σ} (related : Alike R t s) (l : Latency)
    (took : UInt64) : Alike R (t.observe l took) (s.observe l took) :=
  ⟨by simp only [observe, related.metrics], related.health, related.now, related.services⟩

theorem alike_putServices {t : Site τ} {s : Site σ} {x : τ} {y : σ} (related : Alike R t s)
    (services : R x y) : Alike R (t.putServices x) (s.putServices y) :=
  ⟨related.metrics, related.health, related.now, services⟩

theorem akin_onPart {first : Call τ α} {second : Call σ α} (akin : Call.Akin F R first second) :
    Call.Akin F (Alike R) (first.onPart services putServices)
      (second.onPart services putServices) := by
  intro t s related
  obtain ⟨answer, behind⟩ := akin t.services s.services related.services
  exact ⟨answer, alike_putServices related behind⟩

end Gate.Site

structure Gate.Collaborators.Alike (R : τ → σ → Prop) (first : Collaborators τ)
    (second : Collaborators σ) : Prop where
  memberships : ∀ caller id cancelled,
    Call.Alike R (first.memberships caller id cancelled) (second.memberships caller id cancelled)
  settings : ∀ caller id cancelled,
    Call.Alike R (first.settings caller id cancelled) (second.settings caller id cancelled)

structure Gate.Services.Alike (R : τ → σ → Prop) (first : Services τ) (second : Services σ) :
    Prop where
  collaborators : Collaborators.Alike R first.toCollaborators second.toCollaborators
  introspect : ∀ token, Call.Alike R (first.introspect token) (second.introspect token)
  isValid : first.isValid = second.isValid

structure Gate.Collaborators.Akin (F : Failure → Failure → Prop) (R : τ → σ → Prop)
    (first : Collaborators τ) (second : Collaborators σ) : Prop where
  memberships : ∀ caller id cancelled,
    Call.Akin F R (first.memberships caller id cancelled) (second.memberships caller id cancelled)
  settings : ∀ caller id cancelled,
    Call.Akin F R (first.settings caller id cancelled) (second.settings caller id cancelled)

structure Gate.Services.Akin (F : Failure → Failure → Prop) (R : τ → σ → Prop)
    (first : Services τ) (second : Services σ) : Prop where
  collaborators : Collaborators.Akin F R first.toCollaborators second.toCollaborators
  introspect : ∀ token, Call.Akin F R (first.introspect token) (second.introspect token)
  isValid : first.isValid = second.isValid

theorem Gate.Collaborators.akin_of_alike {first : Collaborators τ} {second : Collaborators σ}
    (same : Collaborators.Alike R first second) : Collaborators.Akin Eq R first second :=
  ⟨fun _ _ _ => Call.akin_eq_iff.mpr (same.memberships _ _ _),
    fun _ _ _ => Call.akin_eq_iff.mpr (same.settings _ _ _)⟩

theorem Gate.Services.akin_of_alike {first : Services τ} {second : Services σ}
    (same : Services.Alike R first second) : Services.Akin Eq R first second :=
  ⟨Collaborators.akin_of_alike same.collaborators,
    fun token => Call.akin_eq_iff.mpr (same.introspect token), same.isValid⟩

namespace Resolver

theorem akin_measured {first : Call τ α} {second : Call σ α} (akin : Call.Akin F R first second)
    (lookups errors : Counter) (latency : Latency) (took : UInt64) :
    Call.Akin F (Site.Alike R) (measured lookups errors latency took first)
      (measured lookups errors latency took second) := by
  intro t s related
  obtain ⟨answer, behind⟩ := Site.akin_onPart akin _ _ (Site.alike_count related lookups)
  simp only [measured]
  generalize first.onPart Site.services Site.putServices (t.count lookups) = x at answer behind ⊢
  generalize second.onPart Site.services Site.putServices (s.count lookups) = y at answer behind ⊢
  obtain ⟨result, t⟩ := x
  obtain ⟨result', s⟩ := y
  cases answer with
  | ok a => exact ⟨.ok a, Site.alike_observe behind latency took⟩
  | error akin =>
    exact ⟨.error akin, Site.alike_count (Site.alike_observe behind latency took) errors⟩

variable {first : Collaborators τ} {second : Collaborators σ}

theorem akin_memberships (akin : Collaborators.Akin F R first second) (took : Durations)
    (caller : Caller) (id : String) (cancelled : Bool) :
    Call.Akin F (Site.Alike R) (memberships first took caller id cancelled)
      (memberships second took caller id cancelled) :=
  akin_measured (akin.memberships caller id cancelled) _ _ _ _

theorem akin_hydrate (akin : Collaborators.Akin F R first second) (took : Durations)
    (caller : Caller) (id : String) (cancelled : Bool) :
    Call.Akin F (Site.Alike R) (hydrate first took caller id cancelled)
      (hydrate second took caller id cancelled) :=
  Call.akin_bind (akin_measured (akin.settings caller id cancelled) _ _ _ _) fun _ =>
    Call.akin_done _

theorem akin_resolveAnonymous (akin : Collaborators.Akin F R first second)
    (isValid : String → Bool) (took : Durations) (detection : Detection) (cancelled : Bool) :
    Call.Akin F (Site.Alike R) (resolveAnonymous isValid first took detection cancelled)
      (resolveAnonymous isValid second took detection cancelled) := by
  unfold resolveAnonymous
  cases detection.tenantId with
  | none => exact Call.akin_done _
  | some tenantId =>
    by_cases valid : isValid tenantId = true
    · simp only [valid, ↓reduceIte]
      exact akin_hydrate akin took _ _ _
    · simp only [valid]
      exact Call.akin_done _

theorem akin_resolveDefault (akin : Collaborators.Akin F R first second) (took : Durations)
    (caller : Caller) (user : User) (cancelled : Bool) :
    Call.Akin F (Site.Alike R) (resolveDefault first took caller user cancelled)
      (resolveDefault second took caller user cancelled) := by
  unfold resolveDefault
  split
  · apply Call.akin_bind (akin_hydrate akin took _ _ _)
    intro outcome
    apply Call.akin_bind (Call.akin_change fun _ _ related => Site.alike_count related _)
    intro _
    exact Call.akin_done _
  · exact Call.akin_done _

theorem akin_resolveAuthenticated (akin : Collaborators.Akin F R first second)
    (isValid : String → Bool) (took : Durations) (callerId : String) (detection : Detection)
    (cancelled : Bool) :
    Call.Akin F (Site.Alike R)
      (resolveAuthenticated isValid first took callerId detection cancelled)
      (resolveAuthenticated isValid second took callerId detection cancelled) := by
  unfold resolveAuthenticated
  cases detection.tenantId with
  | none =>
    by_cases required : detection.required = true
    · simp only [required, ↓reduceIte]
      exact Call.akin_bind (akin_memberships akin took _ _ _) fun user =>
        akin_resolveDefault akin took _ user _
    · simp only [required]
      exact Call.akin_done _
  | some tenantId =>
    by_cases valid : isValid tenantId = true
    · simp only [valid, ↓reduceIte]
      apply Call.akin_bind (akin_memberships akin took _ _ _)
      intro user
      cases user.membershipOf tenantId with
      | some _ => exact akin_hydrate akin took _ _ _
      | none => exact Call.akin_done _
    · simp only [valid]
      exact Call.akin_done _

theorem akin_resolve (akin : Collaborators.Akin F R first second) (isValid : String → Bool)
    (took : Durations) (caller : Caller) (detection : Detection) (cancelled : Bool) :
    Call.Akin F (Site.Alike R) (resolve isValid first took caller detection cancelled)
      (resolve isValid second took caller detection cancelled) := by
  cases caller with
  | anonymous => exact akin_resolveAnonymous akin isValid took detection cancelled
  | authenticated id => exact akin_resolveAuthenticated akin isValid took id detection cancelled

theorem alike_resolve (same : Collaborators.Alike R first second) (isValid : String → Bool)
    (took : Durations) (caller : Caller) (detection : Detection) (cancelled : Bool) :
    Call.Alike (Site.Alike R) (resolve isValid first took caller detection cancelled)
      (resolve isValid second took caller detection cancelled) :=
  Call.akin_eq_iff.mp
    (akin_resolve (Collaborators.akin_of_alike same) isValid took caller detection cancelled)

end Resolver

namespace Gate

open Api

def HandlersAlike (R : τ → σ → Prop) (first : Handler τ) (second : Handler σ) : Prop :=
  ∀ inbound, ∀ t s, Site.Alike R t s →
    (first inbound t).1 = (second inbound s).1 ∧
      Site.Alike R (first inbound t).2 (second inbound s).2

/-- One answer, or the problems of two failures that are related. The answers have come the same way. -/
inductive RepliesAkin (F : Failure → Failure → Prop) (way : Http.Response → Http.Response) :
    Http.Response → Http.Response → Prop where
  | same (r : Http.Response) : RepliesAkin F way r r
  | failed {f f' : Failure} (akin : F f f') :
      RepliesAkin F way (way (Problem.ofFailure f).respond) (way (Problem.ofFailure f').respond)

theorem eq_of_repliesAkin {way : Http.Response → Http.Response} {r r' : Http.Response}
    (akin : RepliesAkin Eq way r r') : r = r' := by
  cases akin with
  | same r => rfl
  | failed same => rw [same]

/-- The same as for handlers that answer alike, up to the problems of related failures. -/
def HandlersAkin (F : Failure → Failure → Prop) (R : τ → σ → Prop) (first : Handler τ)
    (second : Handler σ) : Prop :=
  ∀ inbound, ∀ t s, Site.Alike R t s →
    RepliesAkin F id (first inbound t).1 (second inbound s).1 ∧
      Site.Alike R (first inbound t).2 (second inbound s).2

theorem handlersAkin_of_alike {first : Handler τ} {second : Handler σ}
    (alike : HandlersAlike R first second) : HandlersAkin F R first second := by
  intro inbound t s related
  obtain ⟨same, behind⟩ := alike inbound t s related
  rw [same]
  exact ⟨.same _, behind⟩

def LayersAkin (F : Failure → Failure → Prop) (R : τ → σ → Prop) (first : Layer τ)
    (second : Layer σ) : Prop :=
  ∀ next next', HandlersAkin F R next next' → HandlersAkin F R (first next) (second next')

theorem akin_callerOf (kin : Failure.Kinship F) {introspect : String → Call τ Auth.Introspection}
    {introspect' : String → Call σ Auth.Introspection}
    (akin : ∀ token, Call.Akin F R (introspect token) (introspect' token))
    (headers : List Http.Header) :
    Call.Akin F (Site.Alike R) (callerOf introspect headers) (callerOf introspect' headers) := by
  apply Call.akin_bind (Call.akin_ofExcept kin _)
  intro token?
  cases token? with
  | none => exact Call.akin_done _
  | some token =>
    apply Call.akin_bind (Site.akin_onPart (akin token))
    intro verdict
    apply Call.akin_bind (Call.akin_ofExcept kin _)
    intro id
    exact Call.akin_done _

theorem alike_callerOf {introspect : String → Call τ Auth.Introspection}
    {introspect' : String → Call σ Auth.Introspection}
    (same : ∀ token, Call.Alike R (introspect token) (introspect' token))
    (headers : List Http.Header) :
    Call.Alike (Site.Alike R) (callerOf introspect headers) (callerOf introspect' headers) :=
  Call.akin_eq_iff.mp
    (akin_callerOf Failure.kinship_eq (fun token => Call.akin_eq_iff.mpr (same token)) headers)

theorem akin_authenticate (kin : Failure.Kinship F)
    {introspect : String → Call τ Auth.Introspection}
    {introspect' : String → Call σ Auth.Introspection}
    (akin : ∀ token, Call.Akin F R (introspect token) (introspect' token)) :
    LayersAkin F R (authenticate introspect) (authenticate introspect') := by
  intro next next' behind inbound t s related
  obtain ⟨answer, left⟩ := akin_callerOf kin akin inbound.request.headers t s related
  simp only [authenticate]
  generalize callerOf introspect inbound.request.headers t = x at answer left ⊢
  generalize callerOf introspect' inbound.request.headers s = y at answer left ⊢
  obtain ⟨result, t⟩ := x
  obtain ⟨result', s⟩ := y
  cases answer with
  | ok caller => exact behind _ t s left
  | error akin => exact ⟨.failed akin, left⟩

theorem akin_authorize (table : RouteTable) :
    LayersAkin F R (authorize table) (authorize table) := by
  intro next next' behind inbound t s related
  simp only [authorize]
  cases operationOf table inbound with
  | none => exact behind inbound t s related
  | some d =>
    by_cases may : mayCall d inbound.extensions.caller = true
    · simp only [may, ↓reduceIte]
      exact behind inbound t s related
    · simp only [may]
      exact ⟨.same _, related⟩

theorem akin_decideTenancy {services : Services τ} {services' : Services σ}
    (akin : Services.Akin F R services services') (took : Durations) (d : Descriptor)
    (inbound : Inbound) :
    Call.Akin F (Site.Alike R) (decideTenancy services took d inbound)
      (decideTenancy services' took d inbound) := by
  intro t s related
  simp only [decideTenancy, akin.isValid]
  exact Resolver.akin_resolve akin.collaborators _ took _ _ _ _ _
    (Site.alike_count related .requestsInspected)

theorem alike_decideTenancy {services : Services τ} {services' : Services σ}
    (same : Services.Alike R services services') (took : Durations) (d : Descriptor)
    (inbound : Inbound) :
    Call.Alike (Site.Alike R) (decideTenancy services took d inbound)
      (decideTenancy services' took d inbound) :=
  Call.akin_eq_iff.mp (akin_decideTenancy (Services.akin_of_alike same) took d inbound)

theorem akin_conclude (kin : Failure.Kinship F) {next : Handler τ} {next' : Handler σ}
    (behind : HandlersAkin F R next next') (inbound : Inbound) {t : Site τ} {s : Site σ}
    (related : Site.Alike R t s) {result result' : Except Failure Outcome}
    (akin : AnswersAkin F result result') :
    RepliesAkin F id (conclude next inbound t result).1 (conclude next' inbound s result').1 ∧
      Site.Alike R (conclude next inbound t result).2 (conclude next' inbound s result').2 := by
  cases akin with
  | @error f f' akin =>
    refine ⟨.failed akin, ?_⟩
    simp only [conclude, kin.cancelled f f' akin]
    split
    · exact Site.alike_count related _
    · exact related
  | ok outcome =>
    cases outcome with
    | forward => exact behind inbound _ _ (Site.alike_count related _)
    | reject rejection => exact ⟨.same _, Site.alike_count related _⟩
    | forwardWith tenancy =>
      simp only [conclude]
      cases publish tenancy inbound with
      | ok inbound => exact behind inbound _ _ (Site.alike_count related _)
      | error f => exact ⟨.same _, related⟩

theorem akin_multiTenancy (kin : Failure.Kinship F) {services : Services τ}
    {services' : Services σ} (akin : Services.Akin F R services services') (table : RouteTable)
    (took : Durations) :
    LayersAkin F R (multiTenancy table services took) (multiTenancy table services' took) := by
  intro next next' behind inbound t s related
  simp only [multiTenancy]
  cases operationOf table inbound with
  | none => exact behind inbound t s related
  | some d =>
    obtain ⟨answer, left⟩ := akin_decideTenancy akin took d inbound t s related
    exact akin_conclude kin behind inbound (Site.alike_observe left _ _) answer

theorem akin_wrapAll {layers : List (Layer τ)} {layers' : List (Layer σ)}
    (akin : List.Forall₂ (LayersAkin F R) layers layers') :
    LayersAkin F R (wrapAll layers) (wrapAll layers') := by
  intro next next' behind
  induction akin with
  | nil => exact behind
  | cons first rest ih => exact first _ _ ih

structure Route.Akin (F : Failure → Failure → Prop) (R : τ → σ → Prop) (first : Route τ)
    (second : Route σ) : Prop where
  template : first.template = second.template
  method : first.method = second.method
  handler : HandlersAkin F R first.handler second.handler

namespace Router

variable {routes : List (Route τ)} {routes' : List (Route σ)}

theorem findTemplate_of_akin (akin : List.Forall₂ (Route.Akin F R) routes routes')
    (path : List UInt8) : findTemplate routes path = findTemplate routes' path := by
  have matched : (routes.filterMap fun r => matchTemplate path r.template) =
      routes'.filterMap fun r => matchTemplate path r.template := by
    induction akin with
    | nil => rfl
    | cons first rest ih => simp only [List.filterMap_cons, first.template, ih]
  simp only [findTemplate, matched]

theorem akin_atTemplate (akin : List.Forall₂ (Route.Akin F R) routes routes') (template : String) :
    List.Forall₂ (Route.Akin F R) (atTemplate routes template) (atTemplate routes' template) := by
  induction akin with
  | nil => exact .nil
  | cons first rest ih =>
    simp only [atTemplate, List.filter_cons, first.template] at ih ⊢
    split
    · exact .cons first ih
    · exact ih

theorem allowText_of_akin (akin : List.Forall₂ (Route.Akin F R) routes routes') :
    allowText routes = allowText routes' := by
  have methods : (routes.map fun r => methodText r.method) =
      routes'.map fun r => methodText r.method := by
    induction akin with
    | nil => rfl
    | cons first rest ih => simp only [List.map_cons, first.method, ih]
  simp only [allowText, methods]

theorem akin_routeAt (akin : List.Forall₂ (Route.Akin F R) routes routes') (template : String)
    (method : Http.Method) :
    Option.Rel (Route.Akin F R) (routeAt routes template method)
      (routeAt routes' template method) := by
  have there := akin_atTemplate akin template
  simp only [routeAt]
  generalize atTemplate routes template = here at there ⊢
  generalize atTemplate routes' template = here' at there ⊢
  induction there with
  | nil => exact .none
  | cons first rest ih =>
    simp only [List.find?_cons, first.method]
    split
    · exact .some first
    · exact ih

theorem akin_dispatch (akin : List.Forall₂ (Route.Akin F R) routes routes')
    (extensions : Extensions) (request : Http.Request) {t : Site τ} {s : Site σ}
    (related : Site.Alike R t s) :
    RepliesAkin F id (dispatch routes extensions request t).1
        (dispatch routes' extensions request s).1 ∧
      Site.Alike R (dispatch routes extensions request t).2
        (dispatch routes' extensions request s).2 := by
  simp only [dispatch, findTemplate_of_akin akin]
  cases findTemplate routes' request.uri.path with
  | none => exact ⟨.same _, related⟩
  | some m =>
    have found := akin_routeAt akin m.template request.method
    have allowed := allowText_of_akin (akin_atTemplate akin m.template)
    simp only [allowed]
    generalize routeAt routes m.template request.method = r at found ⊢
    generalize routeAt routes' m.template request.method = r' at found ⊢
    cases found with
    | none => exact ⟨.same _, related⟩
    | some route => exact route.handler _ t s related

end Router

structure MountsAlike (R : τ → σ → Prop) (first : Mount (Handler τ)) (second : Mount (Handler σ)) :
    Prop where
  path : first.path = second.path
  method : first.method = second.method
  handler : HandlersAlike R first.handler second.handler

structure RegistriesAlike (R : τ → σ → Prop) (first : Registry (Handler τ))
    (second : Registry (Handler σ)) : Prop where
  table : first.table = second.table
  handlers : List.Forall₂ (MountsAlike R) first.handlers second.handlers

namespace Host

def finished (request : Http.Request) (r : Http.Response) : Http.Response :=
  withoutBody request (openToOrigins (compress request r))

variable {registry : Registry (Handler τ)} {registry' : Registry (Handler σ)}
  {services : Services τ} {services' : Services σ}

theorem akin_operationLayers (kin : Failure.Kinship F)
    (akin : Services.Akin F R services services') (table : RouteTable) (took : Durations) :
    List.Forall₂ (LayersAkin F R) (operationLayers table services took)
      (operationLayers table services' took) :=
  .cons (akin_authenticate kin akin.introspect) <| .cons (akin_authorize table) <|
    .cons (akin_multiTenancy kin akin table took) .nil

theorem akin_layeredRoutes {layers : List (Layer τ)} {layers' : List (Layer σ)}
    (around : List.Forall₂ (LayersAkin F R) layers layers')
    (same : List.Forall₂ (MountsAlike R) registry.handlers registry'.handlers) :
    List.Forall₂ (Route.Akin F R) (layeredRoutes layers registry)
      (layeredRoutes layers' registry') := by
  simp only [layeredRoutes]
  generalize registry.handlers = mounts at same ⊢
  generalize registry'.handlers = mounts' at same ⊢
  induction same with
  | nil => exact .nil
  | cons first rest ih =>
    have behind : HandlersAkin F R _ _ := handlersAkin_of_alike first.handler
    exact .cons ⟨first.path, first.method, akin_wrapAll around _ _ behind⟩ ih

theorem akin_probeRoutes : List.Forall₂ (Route.Akin F R) probeRoutes probeRoutes := by
  refine .cons ⟨rfl, rfl, handlersAkin_of_alike ?_⟩ <|
    .cons ⟨rfl, rfl, handlersAkin_of_alike ?_⟩ <| .cons ⟨rfl, rfl, handlersAkin_of_alike ?_⟩ <|
    .cons ⟨rfl, rfl, handlersAkin_of_alike ?_⟩ .nil
  · intro inbound t s related
    exact ⟨by simp only [Handlers.health, related.health, related.metrics], related⟩
  · intro inbound t s related
    exact ⟨by simp only [Handlers.ready, related.health], related⟩
  · intro inbound t s related
    exact ⟨by simp only [Handlers.live, related.health], related⟩
  · intro inbound t s related
    exact ⟨by simp only [Handlers.metrics, related.now, related.metrics], related⟩

theorem akin_answer {routes : List (Route τ)} {routes' : List (Route σ)}
    (akin : List.Forall₂ (Route.Akin F R) routes routes') (request : Http.Request) {t : Site τ}
    {s : Site σ} (related : Site.Alike R t s) :
    RepliesAkin F (finished request) (answer routes request t).1 (answer routes' request s).1 ∧
      Site.Alike R (answer routes request t).2 (answer routes' request s).2 := by
  simp only [answer_eq]
  split
  · have allowed : Router.allowedAt routes request.uri.path =
        Router.allowedAt routes' request.uri.path := by
      simp only [Router.allowedAt, Router.findTemplate_of_akin akin,
        Router.allowText_of_akin (Router.akin_atTemplate akin _)]
    rw [allowed]
    exact ⟨.same _, related⟩
  · obtain ⟨reply, left⟩ := Router.akin_dispatch akin
      { Extensions.none with cancelled := some false } request related
    simp only
    generalize Router.dispatch routes _ request t = x at reply left ⊢
    generalize Router.dispatch routes' _ request s = y at reply left ⊢
    obtain ⟨r, t⟩ := x
    obtain ⟨r', s⟩ := y
    cases reply with
    | same r => exact ⟨.same _, left⟩
    | failed akin => exact ⟨.failed akin, left⟩

/-- Hosts around services with related failures give the same answers, but for the problems of these
failures. -/
theorem akin_serve (kin : Failure.Kinship F) (handled : RegistriesAlike R registry registry')
    (akin : Services.Akin F R services services') (took : Durations) (request : Http.Request)
    {t : Site τ} {s : Site σ} (related : Site.Alike R t s) :
    RepliesAkin F (finished request) (serve registry services took request t).1
        (serve registry' services' took request s).1 ∧
      Site.Alike R (serve registry services took request t).2
        (serve registry' services' took request s).2 := by
  apply akin_answer _ request related
  simp only [routes, handled.table]
  exact List.rel_append
    (akin_layeredRoutes (akin_operationLayers kin akin _ took) handled.handlers) akin_probeRoutes

theorem alike_serve (handled : RegistriesAlike R registry registry')
    (same : Services.Alike R services services') (took : Durations) (request : Http.Request)
    {t : Site τ} {s : Site σ} (related : Site.Alike R t s) :
    (serve registry services took request t).1 = (serve registry' services' took request s).1 ∧
      Site.Alike R (serve registry services took request t).2
        (serve registry' services' took request s).2 := by
  obtain ⟨reply, left⟩ := akin_serve Failure.kinship_eq handled (Services.akin_of_alike same) took
    request related
  exact ⟨eq_of_repliesAkin reply, left⟩

end Host

end Gate

end TenantGate
