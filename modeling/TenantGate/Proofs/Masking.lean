import TenantGate.Proofs.Dispatch
import TenantGate.Service.World

/-!
What is kept from clients. Masking the encrypted values before they enter the host changes none of
its answers. So hosts whose services differ in encrypted values alone answer alike, all along.
-/
namespace TenantGate

open Gate Api

variable {σ τ : Type}

def Setting.masked (s : Setting) : Setting := if s.isEncrypted then ⟨maskedValue, true⟩ else s

def Settings.masked (s : Settings) : Settings :=
  ⟨s.entries.map fun (name, setting) => (name, setting.masked)⟩

def Tenancy.masked (t : Tenancy) : Tenancy := ⟨t.tenantId, t.settings.masked⟩

def Outcome.masked : Outcome → Outcome
  | .forwardWith tenancy => .forwardWith tenancy.masked
  | outcome => outcome

structure Setting.SeenAlike (s s' : Setting) : Prop where
  isEncrypted : s.isEncrypted = s'.isEncrypted
  value : s.isEncrypted = false → s.value = s'.value

/-- The settings have the same names in the same order, each for settings that are seen alike. -/
def Settings.SeenAlike (s s' : Settings) : Prop :=
  List.Forall₂ (fun e e' => e.1 = e'.1 ∧ e.2.SeenAlike e'.2) s.entries s'.entries

theorem Setting.masked_eq_of_seenAlike {s s' : Setting} (alike : s.SeenAlike s') :
    s.masked = s'.masked := by
  obtain ⟨value, flag⟩ := s
  obtain ⟨value', flag'⟩ := s'
  obtain ⟨rfl, shown⟩ := alike
  cases flag with
  | true => rfl
  | false => exact congrArg (fun v => Setting.masked ⟨v, false⟩) (shown rfl)

theorem Settings.masked_eq_of_seenAlike {s s' : Settings} (alike : s.SeenAlike s') :
    s.masked = s'.masked := by
  obtain ⟨entries⟩ := s
  obtain ⟨entries'⟩ := s'
  have same : entries.map (fun (name, setting) => (name, setting.masked)) =
      entries'.map fun (name, setting) => (name, setting.masked) := by
    change List.Forall₂ _ entries entries' at alike
    induction alike with
    | nil => rfl
    | cons first _ ih =>
      simp only [List.map_cons, ih, first.1, Setting.masked_eq_of_seenAlike first.2]
  exact congrArg Settings.mk same

namespace Api

theorem shownValue_masked (s : Setting) : shownValue s.masked = shownValue s := by
  unfold Setting.masked shownValue
  by_cases encrypted : s.isEncrypted = true
  · simp only [if_pos encrypted, ↓reduceIte]
  · simp only [if_neg encrypted]

theorem OrganizationSettings.ofTenancy_masked (t : Tenancy) :
    OrganizationSettings.ofTenancy t.masked = OrganizationSettings.ofTenancy t := by
  simp only [OrganizationSettings.ofTenancy, Tenancy.masked, Settings.masked, List.map_map]
  congr 2
  funext entry
  simp only [Function.comp_apply, shownValue_masked]

theorem CallReport.ofCall_masked (caller : Caller) (t : Tenancy) :
    CallReport.ofCall caller (some t.masked) = CallReport.ofCall caller (some t) := by
  simp only [CallReport.ofCall, Option.map_some, Tenancy.masked, Settings.masked, Settings.length,
    List.length_map]

end Api

namespace Gate

def Collaborators.masked (services : Collaborators σ) : Collaborators σ where
  memberships := services.memberships
  settings caller tenantId cancelled := do
    let settings ← services.settings caller tenantId cancelled
    return settings.masked

def Services.masked (services : Services σ) : Services σ :=
  { services with toCollaborators := services.toCollaborators.masked }

end Gate

namespace Resolver

open Telemetry

theorem measured_bind_pure {α β : Type} (lookups errors : Counter) (latency : Latency)
    (took : UInt64) (lookup : Call σ α) (f : α → β) (site : Site σ) :
    measured lookups errors latency took (lookup >>= fun a => pure (f a)) site =
      ((measured lookups errors latency took lookup site).1.map f,
        (measured lookups errors latency took lookup site).2) := by
  simp only [measured, Call.onPart, Call.bind_pure_apply]
  rcases lookup (site.count lookups).services with ⟨_ | _, _⟩ <;> rfl

/-- The second decision is the first one with its tenancy masked. -/
def Masks (first second : Call (Site σ) Outcome) : Prop :=
  ∀ site, second site = ((first site).1.map Outcome.masked, (first site).2)

theorem masks_done {outcome : Outcome} (plain : outcome.masked = outcome) :
    Masks (Call.done outcome : Call (Site σ) Outcome) (Call.done outcome) := by
  intro site
  simp only [Call.done, Except.map, plain]

theorem masks_bind {α : Type} {call : Call (Site σ) α} {first second : α → Call (Site σ) Outcome}
    (masks : ∀ a, Masks (first a) (second a)) : Masks (call >>= first) (call >>= second) := by
  intro site
  cases answer : (call site).1 with
  | ok a => rw [Call.bind_of_ok _ answer, Call.bind_of_ok _ answer, masks]
  | error f =>
    rw [Call.bind_of_error _ answer, Call.bind_of_error _ answer]
    rfl

theorem masks_andThen {first second : Call (Site σ) Outcome} {rest : Outcome → Call (Site σ) Outcome}
    (masks : Masks first second) (masks' : ∀ outcome, Masks (rest outcome) (rest outcome.masked)) :
    Masks (first >>= rest) (second >>= rest) := by
  intro site
  have start := masks site
  cases answer : (first site).1 with
  | ok outcome =>
    rw [answer] at start
    rw [Call.bind_of_ok rest answer, Call.bind_of_ok rest (congrArg Prod.fst start), start, masks']
  | error f =>
    rw [answer] at start
    rw [Call.bind_of_error rest answer, Call.bind_of_error rest (congrArg Prod.fst start), start]
    rfl

variable (services : Collaborators σ) (took : Durations) (caller : Caller) (cancelled : Bool)

theorem masks_hydrate (tenantId : String) :
    Masks (hydrate services took caller tenantId cancelled)
      (hydrate services.masked took caller tenantId cancelled) := by
  intro site
  simp only [hydrate, Collaborators.masked, Call.bind_pure_apply, measured_bind_pure]
  cases (measured .settingsLookups .settingsLookupErrors .settings took.settings
    (services.settings caller tenantId cancelled) site).1 <;> rfl

theorem masks_resolveAnonymous (isValid : String → Bool) (detection : Detection) :
    Masks (resolveAnonymous isValid services took detection cancelled)
      (resolveAnonymous isValid services.masked took detection cancelled) := by
  unfold resolveAnonymous
  cases detection.tenantId with
  | none =>
    by_cases required : detection.required = true
    · simp only [if_pos required]
      exact masks_done rfl
    · simp only [if_neg required]
      exact masks_done rfl
  | some tenantId =>
    by_cases valid : isValid tenantId = true
    · simp only [if_pos valid]
      exact masks_hydrate services took _ _ _
    · simp only [if_neg valid]
      exact masks_done rfl

theorem masks_resolveDefault (user : User) :
    Masks (resolveDefault services took caller user cancelled)
      (resolveDefault services.masked took caller user cancelled) := by
  unfold resolveDefault
  split
  · apply masks_andThen (masks_hydrate services took caller cancelled _)
    intro outcome site
    rfl
  · exact masks_done rfl

theorem masks_resolveAuthenticated (isValid : String → Bool) (callerId : String)
    (detection : Detection) :
    Masks (resolveAuthenticated isValid services took callerId detection cancelled)
      (resolveAuthenticated isValid services.masked took callerId detection cancelled) := by
  unfold resolveAuthenticated
  cases detection.tenantId with
  | none =>
    by_cases required : detection.required = true
    · simp only [if_pos required]
      exact masks_bind fun user => masks_resolveDefault services took _ cancelled user
    · simp only [if_neg required]
      exact masks_done rfl
  | some tenantId =>
    by_cases valid : isValid tenantId = true
    · simp only [if_pos valid]
      apply masks_bind
      intro user
      cases user.membershipOf tenantId with
      | some m => exact masks_hydrate services took _ cancelled tenantId
      | none => exact masks_done rfl
    · simp only [if_neg valid]
      exact masks_done rfl

theorem masks_resolve (isValid : String → Bool) (detection : Detection) :
    Masks (resolve isValid services took caller detection cancelled)
      (resolve isValid services.masked took caller detection cancelled) := by
  cases caller with
  | anonymous => exact masks_resolveAnonymous services took cancelled isValid detection
  | authenticated id =>
    exact masks_resolveAuthenticated services took cancelled isValid id detection

end Resolver

namespace Gate

/-- With masked settings the handler does what it does with the settings themselves. -/
def Discreet (handler : Handler σ) : Prop :=
  ∀ (inbound : Inbound) (tenancy : Tenancy) (site : Site σ),
    handler (inbound.withSlot ⟨some tenancy.masked⟩) site =
      handler (inbound.withSlot ⟨some tenancy⟩) site

theorem organizationSettings_unreadable {inbound : Inbound} {name : String}
    (values : inbound.values = .error name) (site : Site σ) :
    Handlers.organizationSettings inbound site =
      (.plain .badRequest ("Invalid URL: Invalid UTF-8 in `" ++ name ++ "`"), site) := by
  simp only [Handlers.organizationSettings, values]

theorem organizationSettings_shown {inbound : Inbound} {values : RouteValues} {tenancy : Tenancy}
    (read : inbound.values = .ok values) (held : inbound.extensions.tenancy? = some tenancy)
    (site : Site σ) :
    Handlers.organizationSettings inbound site =
      (.json (OrganizationSettings.format.write (.ofTenancy tenancy)), site) := by
  simp only [Handlers.organizationSettings, read, Handlers.needTenancy, held]

theorem operations_discreet : ∀ e ∈ (operations : List (Entry (Handler σ))),
    Discreet e.handler := by
  intro e member inbound tenancy site
  rcases List.mem_cons.mp member with rfl | member
  · rfl
  rcases List.mem_cons.mp member with rfl | member
  · have kept (t : Tenancy) : (inbound.withSlot ⟨some t⟩).values = inbound.values := rfl
    cases values : inbound.values with
    | error name =>
      have unreadable (t : Tenancy) := organizationSettings_unreadable ((kept t).trans values) site
      exact (unreadable tenancy.masked).trans (unreadable tenancy).symm
    | ok given =>
      have shown (t : Tenancy) :=
        organizationSettings_shown ((kept t).trans values) (rfl : _ = some t) site
      have same := shown tenancy.masked
      rw [OrganizationSettings.ofTenancy_masked] at same
      exact same.trans (shown tenancy).symm
  rcases List.mem_cons.mp member with rfl | member
  · change (Http.Response.json (CallReport.format.write
      (.ofCall _ (some tenancy.masked))), site) = _
    rw [CallReport.ofCall_masked]
    rfl
  rcases List.mem_singleton.mp member with rfl
  change (if Handlers.repeatsOrganization _ then _
    else (Http.Response.json (CallReport.format.write
      (.ofCall _ (some tenancy.masked))), site)) = _
  rw [CallReport.ofCall_masked]
  rfl

theorem conclude_masked {next : Handler σ} (discreet : Discreet next) (inbound : Inbound)
    (site : Site σ) (result : Except Failure Outcome) :
    conclude next inbound site (result.map Outcome.masked) = conclude next inbound site result := by
  rcases result with f | outcome
  · rfl
  · cases outcome with
    | forward => rfl
    | reject r => rfl
    | forwardWith tenancy =>
      simp only [Except.map, Outcome.masked, conclude, publish, Slot.set]
      cases (inbound.extensions.tenancy.getD .empty).tenancy? with
      | none => exact discreet inbound tenancy _
      | some held => rfl

theorem multiTenancy_masked {next : Handler σ} (discreet : Discreet next) (table : RouteTable)
    (services : Services σ) (took : Durations) :
    multiTenancy table services.masked took next = multiTenancy table services took next := by
  funext inbound site
  simp only [multiTenancy]
  cases operationOf table inbound with
  | none => rfl
  | some d =>
    have decided := Resolver.masks_resolve services.toCollaborators took
      inbound.extensions.callerOrAnonymous inbound.extensions.isCancelled services.isValid
      (detectionOf d inbound) (site.count .requestsInspected)
    have masked : decideTenancy services.masked took d inbound site =
        ((decideTenancy services took d inbound site).1.map Outcome.masked,
          (decideTenancy services took d inbound site).2) := decided
    simp only [masked]
    exact conclude_masked discreet inbound _ _

/-- Around discreet handlers a host does not tell masked services from the services themselves. -/
theorem serve_masked {registry : Registry (Handler σ)}
    (discreet : ∀ mount ∈ registry.handlers, Discreet mount.handler) (services : Services σ)
    (took : Durations) :
    Host.serve registry services.masked took = Host.serve registry services took := by
  have layered : Host.layeredRoutes (Host.operationLayers registry.table services.masked took)
      registry = Host.layeredRoutes (Host.operationLayers registry.table services took)
        registry := by
    simp only [Host.layeredRoutes]
    apply List.map_congr_left
    intro mount filed
    simp only [wrapAll, Host.operationLayers, List.foldr,
      multiTenancy_masked (discreet mount filed)]
    rfl
  funext request site
  simp only [Host.serve, Host.routes, layered]

inductive AnswersSeenAlike : Except Failure Settings → Except Failure Settings → Prop where
  | settings {s s' : Settings} (alike : s.SeenAlike s') : AnswersSeenAlike (.ok s) (.ok s')
  | failure (f : Failure) : AnswersSeenAlike (.error f) (.error f)

/-- On related states the services answer alike but for encrypted values, and leave related states
behind. -/
structure Services.SeenAlike (R : τ → σ → Prop) (first : Services τ) (second : Services σ) :
    Prop where
  introspect : ∀ token, Call.Alike R (first.introspect token) (second.introspect token)
  memberships : ∀ caller id cancelled,
    Call.Alike R (first.memberships caller id cancelled) (second.memberships caller id cancelled)
  settings : ∀ caller tenantId cancelled t s, R t s →
    AnswersSeenAlike (first.settings caller tenantId cancelled t).1
        (second.settings caller tenantId cancelled s).1 ∧
      R (first.settings caller tenantId cancelled t).2 (second.settings caller tenantId cancelled s).2
  isValid : first.isValid = second.isValid

variable {R : τ → σ → Prop}

theorem masked_eq_of_answersSeenAlike {answer answer' : Except Failure Settings}
    (alike : AnswersSeenAlike answer answer') :
    answer.map Settings.masked = answer'.map Settings.masked := by
  cases alike with
  | settings alike => exact congrArg Except.ok (Settings.masked_eq_of_seenAlike alike)
  | failure f => rfl

theorem masked_services_alike {first : Services τ} {second : Services σ}
    (alike : Services.SeenAlike R first second) : Services.Alike R first.masked second.masked := by
  refine ⟨⟨alike.memberships, ?_⟩, alike.introspect, alike.isValid⟩
  intro caller tenantId cancelled t s related
  obtain ⟨seen, left⟩ := alike.settings caller tenantId cancelled t s related
  simp only [Services.masked, Collaborators.masked, Call.bind_pure_apply]
  exact ⟨masked_eq_of_answersSeenAlike seen, left⟩

structure EntriesAlike (R : τ → σ → Prop) (first : Entry (Handler τ)) (second : Entry (Handler σ)) :
    Prop where
  contract : first.contract = second.contract
  requiresTenant : first.requiresTenant = second.requiresTenant
  handler : HandlersAlike R first.handler second.handler

theorem operations_alike :
    List.Forall₂ (EntriesAlike R) (operations : List (Entry (Handler τ)))
      (operations : List (Entry (Handler σ))) := by
  refine .cons ⟨rfl, rfl, ?_⟩ <| .cons ⟨rfl, rfl, ?_⟩ <| .cons ⟨rfl, rfl, ?_⟩ <|
    .cons ⟨rfl, rfl, ?_⟩ .nil
  · intro inbound t s related
    simp only [Handlers.recordCrash]
    split <;> exact ⟨rfl, related⟩
  · intro inbound t s related
    simp only [Handlers.organizationSettings]
    split
    · exact ⟨rfl, related⟩
    · split <;> exact ⟨rfl, related⟩
  · intro inbound t s related
    exact ⟨rfl, related⟩
  · intro inbound t s related
    simp only [Handlers.tenancyReport]
    split
    · exact ⟨rfl, related⟩
    · split <;> exact ⟨rfl, related⟩

theorem registries_alike {testing : Bool} {entries : List (Entry (Handler τ))}
    {entries' : List (Entry (Handler σ))} {registry : Registry (Handler τ)}
    {registry' : Registry (Handler σ)} (built : Built testing entries registry)
    (built' : Built testing entries' registry')
    (alike : List.Forall₂ (EntriesAlike R) entries entries') :
    RegistriesAlike R registry registry' := by
  have kept : List.Forall₂ (EntriesAlike R) (keptEntries testing entries)
      (keptEntries testing entries') := by
    clear built built'
    induction alike with
    | nil => exact .nil
    | cons first _ ih =>
      simp only [keptEntries, List.filter_cons, Entry.isKept, first.contract] at ih ⊢
      split
      · exact .cons first ih
      · exact ih
  have listed : (keptEntries testing entries).map Entry.descriptor =
      (keptEntries testing entries').map Entry.descriptor := by
    generalize keptEntries testing entries = present at kept ⊢
    generalize keptEntries testing entries' = present' at kept ⊢
    induction kept with
    | nil => rfl
    | cons first _ ih =>
      rw [List.map_cons, List.map_cons, ih, Entry.descriptor, Entry.descriptor, first.contract,
        first.requiresTenant]
  have filed : List.Forall₂ (MountsAlike R) ((keptEntries testing entries).map Entry.mount)
      ((keptEntries testing entries').map Entry.mount) := by
    generalize keptEntries testing entries = present at kept ⊢
    generalize keptEntries testing entries' = present' at kept ⊢
    induction kept with
    | nil => exact .nil
    | cons first _ ih =>
      refine .cons ⟨?_, ?_, first.handler⟩ ih
      · exact congrArg Contract.path first.contract
      · exact congrArg (fun c => methodFilter c.method) first.contract
  obtain ⟨⟨routes⟩, handlers⟩ := registry
  obtain ⟨⟨routes'⟩, handlers'⟩ := registry'
  have table : routes = routes' := built.table.trans (listed.trans built'.table.symm)
  have mounts : handlers = _ := built.handlers
  have mounts' : handlers' = _ := built'.handlers
  subst table mounts mounts'
  exact ⟨rfl, filed⟩

theorem discreet_of_registered {testing : Bool} {registry : Registry (Handler σ)}
    (registered : registeredOperations testing = .ok registry) :
    ∀ mount ∈ registry.handlers, Discreet mount.handler := by
  have built : Built testing operations registry := Built.empty.registerAll registered
  intro mount filed
  rw [built.handlers] at filed
  obtain ⟨e, kept, rfl⟩ := List.mem_map.mp filed
  exact operations_discreet e (List.mem_filter.mp kept).1

theorem serve_seenAlike {testing : Bool} {registry : Registry (Handler τ)}
    {registry' : Registry (Handler σ)} (registered : registeredOperations testing = .ok registry)
    (registered' : registeredOperations testing = .ok registry') {first : Services τ}
    {second : Services σ} (alike : Services.SeenAlike R first second) (took : Durations)
    (request : Http.Request) {t : Site τ} {s : Site σ} (related : Site.Alike R t s) :
    (Host.serve registry first took request t).1 = (Host.serve registry' second took request s).1 ∧
      Site.Alike R (Host.serve registry first took request t).2
        (Host.serve registry' second took request s).2 := by
  rw [← serve_masked (discreet_of_registered registered),
    ← serve_masked (discreet_of_registered registered')]
  have handled : RegistriesAlike R registry registry' :=
    registries_alike (Built.empty.registerAll registered) (Built.empty.registerAll registered')
      operations_alike
  exact Host.alike_serve handled (masked_services_alike alike) took request related

end Gate

end TenantGate
