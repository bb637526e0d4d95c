import TenantGate.Proofs.Checkpoints

/-!
What a request is told is about itself. The identity service is asked about the token in its header,
memberships are those of the caller whom the verdict names, and settings those of its tenant: the
one that it names, or the only default one among those memberships. Its handler sees this caller and
this tenancy.
-/
namespace TenantGate.Gate

open Api

variable {σ : Type}

/-- The caller of a request, by what the identity service has said about it. -/
def IsCaller (inbound : Inbound) (events : List Event) : Caller → Prop
  | .anonymous => Http.firstText? inbound.request.headers "authorization" = none
  | .authenticated c => ∃ token verdict,
      .introspection token (.ok verdict) ∈ events ∧ verdict.Accepts c

/-- The tenant of a request: the one that it names, or the only default one of the memberships that
were reported. -/
def IsTenant (detection : Detection) (events : List Event) (tenantId : String) : Prop :=
  detection.tenantId = some tenantId ∨
    detection.tenantId = none ∧ ∃ c user m,
      .memberships (.authenticated c) c (.ok user) ∈ events ∧ user.SoleDefault m ∧
        m.organizationId = tenantId

/-- What happens concerns the request itself, by what has happened for it. -/
def Event.Own (d : Descriptor) (inbound : Inbound) (events : List Event) : Event → Prop
  | .introspection token _ => Bears inbound token
  | .memberships caller userId _ =>
    caller = .authenticated userId ∧ IsCaller inbound events caller
  | .settings caller tenantId _ =>
    IsCaller inbound events caller ∧ IsTenant (detectionOf d inbound) events tenantId
  | .handling handled =>
    handled.request = inbound.request ∧
      ∃ caller, handled.extensions.caller = some caller ∧ IsCaller inbound events caller ∧
        ∀ tenancy, handled.extensions.tenancy? = some tenancy →
          .settings caller tenancy.tenantId (.ok tenancy.settings) ∈ events

/-- What is looked up for the decision about a caller. -/
def Event.LookedUp (caller : Caller) (detection : Detection) (made : List Event) : Event → Prop
  | .memberships asker userId _ => asker = caller ∧ caller = .authenticated userId
  | .settings asker tenantId _ => asker = caller ∧ IsTenant detection made tenantId
  | _ => False

theorem IsCaller.mono {inbound : Inbound} {events more : List Event} {caller : Caller}
    (known : IsCaller inbound events caller) (within : events ⊆ more) :
    IsCaller inbound more caller := by
  cases caller with
  | anonymous => exact known
  | authenticated c =>
    obtain ⟨token, verdict, told, accepts⟩ := known
    exact ⟨token, verdict, within told, accepts⟩

theorem IsTenant.mono {detection : Detection} {events more : List Event} {tenantId : String}
    (tenant : IsTenant detection events tenantId) (within : events ⊆ more) :
    IsTenant detection more tenantId := by
  rcases tenant with named | ⟨unnamed, c, user, m, told, sole, same⟩
  · exact .inl named
  · exact .inr ⟨unnamed, c, user, m, within told, sole, same⟩

theorem Event.Own.mono {d : Descriptor} {inbound : Inbound} {events more : List Event} {x : Event}
    (own : x.Own d inbound events) (within : events ⊆ more) : x.Own d inbound more := by
  cases x with
  | introspection token answer => exact own
  | memberships caller userId answer => exact ⟨own.1, own.2.mono within⟩
  | settings caller tenantId answer => exact ⟨own.1.mono within, own.2.mono within⟩
  | handling handled =>
    obtain ⟨same, caller, seen, known, told⟩ := own
    exact ⟨same, caller, seen, known.mono within, fun tenancy held => within (told tenancy held)⟩

theorem own_asked (d : Descriptor) (services : Services σ) (inbound : Inbound) (site : Site σ)
    (events : List Event) :
    ∀ x ∈ asked services inbound.request.headers site, x.Own d inbound events := by
  intro x among
  cases present : Http.firstText? inbound.request.headers "authorization" with
  | none =>
    rw [asked, present] at among
    exact absurd among (by simp [Auth.bearerToken])
  | some header =>
    rcases Auth.bearerToken_cases header with ⟨message, refused⟩ | ⟨token, read, _⟩
    · rw [asked, present, refused] at among
      exact absurd among (by simp)
    · rw [asked, present, read] at among
      rw [List.mem_singleton.mp among]
      exact ⟨header, present, read⟩

theorem isCaller_of_known {services : Services σ} {inbound : Inbound} {site s : Site σ}
    {caller : Caller}
    (known : callerOf services.introspect inbound.request.headers site = (.ok caller, s)) :
    IsCaller inbound (asked services inbound.request.headers site) caller := by
  have answer := congrArg Prod.fst known
  cases present : Http.firstText? inbound.request.headers "authorization" with
  | none =>
    rw [callerOf_absent _ _ present] at answer
    rw [← Except.ok.inj answer]
    exact present
  | some header =>
    rcases Auth.bearerToken_cases header with ⟨message, refused⟩ | ⟨token, read, _⟩
    · rw [callerOf_refused _ _ present refused] at answer
      exact absurd answer (by simp)
    · rw [callerOf_token _ _ present read] at answer
      rw [asked, present, read]
      cases told : (services.introspect token site.services).1 with
      | error f =>
        rw [told] at answer
        exact absurd answer (by simp [Except.bind])
      | ok verdict =>
        simp only [told, Except.bind] at answer
        cases decided : verdict.callerId with
        | error f =>
          rw [decided] at answer
          exact absurd answer (by simp [Except.map])
        | ok c =>
          rw [decided] at answer
          obtain rfl : Caller.authenticated c = caller := Except.ok.inj answer
          have accepts := (Auth.Introspection.callerId_ok_iff verdict c).mp decided
          exact ⟨token, verdict, by simp only [told, List.mem_singleton], accepts⟩

theorem lookedUp_of_decides {isValid : String → Bool} {answers : Resolver.Answers}
    {caller : Caller} {detection : Detection} {made : List Event}
    {result : Except Failure Outcome}
    (rule : Resolver.Decides isValid answers caller detection made result) :
    ∀ x ∈ made, x.LookedUp caller detection made := by
  cases rule with
  | soleDefault found sole =>
    refine List.forall_mem_cons.mpr ⟨⟨rfl, rfl⟩, List.forall_mem_singleton.mpr ⟨rfl, .inr ?_⟩⟩
    exact ⟨rfl, _, _, _, List.mem_cons_self, sole, rfl⟩
  | member =>
    exact List.forall_mem_cons.mpr ⟨⟨rfl, rfl⟩, List.forall_mem_singleton.mpr ⟨rfl, .inl rfl⟩⟩
  | anonymousTenant => exact List.forall_mem_singleton.mpr ⟨rfl, .inl rfl⟩
  | notMember | memberFailed | noSoleDefault | defaultFailed =>
    exact List.forall_mem_singleton.mpr ⟨rfl, rfl⟩
  | anonymousMissing | anonymousForward | invalid | authenticatedForward =>
    exact fun _ among => absurd among List.not_mem_nil

section Endings

variable {services : Services σ} {e : Entry (Handler σ)} {inbound : Inbound} {site s : Site σ}
  {caller : Caller} {made : List Event}

theorem own_of_resolved {went : Except Http.Response Inbound}
    (resolved : Resolved services e inbound site caller s made went) :
    ∀ x ∈ asked services inbound.request.headers site ++ made,
      x.Own e.descriptor inbound (asked services inbound.request.headers site ++ made) := by
  obtain ⟨known, _, result, rule, _⟩ := resolved
  have caller_known : IsCaller inbound (asked services inbound.request.headers site ++ made)
      caller := (isCaller_of_known known).mono (List.subset_append_left _ _)
  refine List.forall_mem_append.mpr ⟨own_asked _ _ _ _ _, ?_⟩
  intro x among
  have looked := lookedUp_of_decides rule x among
  cases x with
  | introspection token answer => exact looked.elim
  | memberships asker userId answer =>
    obtain ⟨rfl, rfl⟩ := looked
    exact ⟨rfl, caller_known⟩
  | settings asker tenantId answer =>
    obtain ⟨rfl, tenant⟩ := looked
    exact ⟨caller_known, tenant.mono (List.subset_append_right _ _)⟩
  | handling handled => exact looked.elim

/-- What a handler sees of the caller and the tenancy was told about the request that it handles. -/
theorem own_of_handled {handled : Inbound} (unset : inbound.extensions.tenancy = none)
    (resolved : Resolved services e inbound site caller s made (.ok handled)) :
    ∀ x ∈ asked services inbound.request.headers site ++ made ++ [.handling handled],
      x.Own e.descriptor inbound
        (asked services inbound.request.headers site ++ made ++ [.handling handled]) := by
  have before := own_of_resolved resolved
  obtain ⟨known, _, result, rule, settled⟩ := resolved
  have grows := List.subset_append_left
    (asked services inbound.request.headers site ++ made) [.handling handled]
  refine List.forall_mem_append.mpr
    ⟨fun x among => (before x among).mono grows, List.forall_mem_singleton.mpr ?_⟩
  have unfilled : (inbound.withCaller caller).extensions.tenancy = none := unset
  have tenancies := Step.tenancy?_of_settled unfilled settled
  refine ⟨?_, caller, ?_, ?_, ?_⟩
  · cases settled <;> rfl
  · cases settled <;> rfl
  · exact ((isCaller_of_known known).mono (List.subset_append_left _ made)).mono grows
  · intro tenancy held
    have told := Resolver.settings_of_forwardWith rule ((tenancies tenancy).mp held)
    exact grows (List.mem_append_right _ told)

theorem own_of_ends {table : RouteTable} {took : Durations} {ending : Ending σ}
    (unset : inbound.extensions.tenancy = none)
    (ends : Ends table services took e inbound site ending) :
    ∀ x ∈ ending.events, x.Own e.descriptor inbound ending.events := by
  cases ends with
  | authentication unknown => exact own_asked _ _ _ _ _
  | access known guarded => exact own_asked _ _ _ _ _
  | tenancy resolved left => exact own_of_resolved resolved
  | handler resolved left => exact own_of_handled unset resolved

end Endings

theorem served_own {testing : Bool} {entries : List (Entry (Handler σ))}
    {registry : Registry (Handler σ)} (built : Built testing entries registry)
    (services : Services σ) (took : Durations) {request : Http.Request}
    {mount : Mount (Handler σ)} {inbound : Inbound}
    (requested : Host.operationFor? registry request = some (mount, inbound)) (site : Site σ) :
    ∃ d, operationOf registry.table inbound = some d ∧
      ∀ x ∈ servedEvents registry services took request site,
        x.Own d inbound (servedEvents registry services took request site) := by
  obtain ⟨m, _, routed, _⟩ := Host.operationFor?_inbound requested
  have fresh : inbound.extensions = { Extensions.none with cancelled := some false } := by
    rw [routed]
    rfl
  have unset : inbound.extensions.tenancy = none := by rw [fresh]; rfl
  obtain ⟨e, _, rfl, found⟩ := Host.operationOf_requested built requested
  obtain ⟨ending, ends, _, noted, _⟩ := ends_total found fresh services took site
  have events : servedEvents registry services took request site = ending.events :=
    (servedEvents_operation requested services took site).trans noted
  rw [events]
  exact ⟨e.descriptor, found, own_of_ends unset ends⟩

end TenantGate.Gate
