import TenantGate.Proofs.Callers

/-!
The way of a request to its operation, taken apart into the steps that others can come between:
something is counted, a service is asked, the slot of the request is filled. A plan says what is
done next and how it goes on from there, and looks at nothing else. Carried out without a break,
with any services, it does what the layers do.
-/
namespace TenantGate

open Gate Api Telemetry Auth

variable {σ α β : Type}

inductive Plan (α : Type) where
  | done (a : α)
  | count (c : Counter) (next : Plan α)
  | observe (l : Latency) (took : UInt64) (next : Plan α)
  | askVerdict (token : String) (next : Except Failure Introspection → Plan α)
  | askMemberships (caller : Caller) (userId : String) (cancelled : Bool)
      (next : Except Failure User → Plan α)
  | askSettings (caller : Caller) (tenantId : String) (cancelled : Bool)
      (next : Except Failure Settings → Plan α)
  | publish (tenancy : Tenancy) (inbound : Inbound) (next : Except Failure Inbound → Plan α)

namespace Plan

def bind : Plan α → (α → Plan β) → Plan β
  | done a, f => f a
  | count c next, f => count c (next.bind f)
  | observe l took next, f => observe l took (next.bind f)
  | askVerdict token next, f => askVerdict token fun answer => (next answer).bind f
  | askMemberships caller userId cancelled next, f =>
    askMemberships caller userId cancelled fun answer => (next answer).bind f
  | askSettings caller tenantId cancelled next, f =>
    askSettings caller tenantId cancelled fun answer => (next answer).bind f
  | publish tenancy inbound next, f => publish tenancy inbound fun filled => (next filled).bind f

def attempt (first : Plan (Except Failure α)) (second : α → Plan (Except Failure β)) :
    Plan (Except Failure β) :=
  first.bind fun
    | .ok a => second a
    | .error f => done (.error f)

def run (services : Services σ) : Plan α → Site σ → α × Site σ
  | done a, site => (a, site)
  | count c next, site => next.run services (site.count c)
  | observe l took next, site => next.run services (site.observe l took)
  | askVerdict token next, site =>
    let (answer, site) := (services.introspect token).onPart Site.services Site.putServices site
    (next answer).run services site
  | askMemberships caller userId cancelled next, site =>
    let (answer, site) := (services.memberships caller userId cancelled).onPart Site.services
      Site.putServices site
    (next answer).run services site
  | askSettings caller tenantId cancelled next, site =>
    let (answer, site) := (services.settings caller tenantId cancelled).onPart Site.services
      Site.putServices site
    (next answer).run services site
  | publish tenancy inbound next, site => (next (Gate.publish tenancy inbound)).run services site

/-- Wherever a slot is going to be filled, it is empty. -/
def Open : Plan α → Prop
  | done _ => True
  | count _ next => next.Open
  | observe _ _ next => next.Open
  | askVerdict _ next => ∀ answer, (next answer).Open
  | askMemberships _ _ _ next => ∀ answer, (next answer).Open
  | askSettings _ _ _ next => ∀ answer, (next answer).Open
  | publish _ inbound next => inbound.extensions.tenancy = none ∧ ∀ filled, (next filled).Open

/-- After so many steps nothing is left to be done, whatever is answered. -/
def Within : Plan α → Nat → Prop
  | done _, _ => True
  | count _ next, k => 0 < k ∧ next.Within (k - 1)
  | observe _ _ next, k => 0 < k ∧ next.Within (k - 1)
  | askVerdict _ next, k => 0 < k ∧ ∀ answer, (next answer).Within (k - 1)
  | askMemberships _ _ _ next, k => 0 < k ∧ ∀ answer, (next answer).Within (k - 1)
  | askSettings _ _ _ next, k => 0 < k ∧ ∀ answer, (next answer).Within (k - 1)
  | publish _ _ next, k => 0 < k ∧ ∀ filled, (next filled).Within (k - 1)

theorem run_bind (services : Services σ) (plan : Plan α) (f : α → Plan β) (site : Site σ) :
    (plan.bind f).run services site =
      (f (plan.run services site).1).run services (plan.run services site).2 := by
  induction plan generalizing site with
  | done a => rfl
  | count c next ih => exact ih _
  | observe l took next ih => exact ih _
  | askVerdict token next ih => exact ih _ _
  | askMemberships caller userId cancelled next ih => exact ih _ _
  | askSettings caller tenantId cancelled next ih => exact ih _ _
  | publish tenancy inbound next ih => exact ih _ _

theorem open_bind {plan : Plan α} {f : α → Plan β} (first : plan.Open) (rest : ∀ a, (f a).Open) :
    (plan.bind f).Open := by
  induction plan with
  | done a => exact rest a
  | count c next ih => exact ih first
  | observe l took next ih => exact ih first
  | askVerdict token next ih => exact fun answer => ih answer (first answer)
  | askMemberships caller userId cancelled next ih => exact fun answer => ih answer (first answer)
  | askSettings caller tenantId cancelled next ih => exact fun answer => ih answer (first answer)
  | publish tenancy inbound next ih => exact ⟨first.1, fun filled => ih filled (first.2 filled)⟩

theorem open_attempt {first : Plan (Except Failure α)} {second : α → Plan (Except Failure β)}
    (opens : first.Open) (rest : ∀ a, (second a).Open) : (first.attempt second).Open := by
  apply open_bind opens
  intro result
  cases result with
  | ok a => exact rest a
  | error f => trivial

theorem within_mono {plan : Plan α} {k k' : Nat} (within : plan.Within k) (le : k ≤ k') :
    plan.Within k' := by
  induction plan generalizing k k' with
  | done a => trivial
  | count c next ih => exact ⟨by have := within.1; omega, ih within.2 (by omega)⟩
  | observe l took next ih => exact ⟨by have := within.1; omega, ih within.2 (by omega)⟩
  | askVerdict token next ih =>
    exact ⟨by have := within.1; omega, fun answer => ih answer (within.2 answer) (by omega)⟩
  | askMemberships caller userId cancelled next ih =>
    exact ⟨by have := within.1; omega, fun answer => ih answer (within.2 answer) (by omega)⟩
  | askSettings caller tenantId cancelled next ih =>
    exact ⟨by have := within.1; omega, fun answer => ih answer (within.2 answer) (by omega)⟩
  | publish tenancy inbound next ih =>
    exact ⟨by have := within.1; omega, fun filled => ih filled (within.2 filled) (by omega)⟩

theorem within_bind {plan : Plan α} {f : α → Plan β} {k m : Nat} (first : plan.Within k)
    (rest : ∀ a, (f a).Within m) : (plan.bind f).Within (k + m) := by
  -- The first step of the plan is taken from `k`.
  have taken (k : Nat) (positive : 0 < k) : k - 1 + m ≤ k + m - 1 := by omega
  induction plan generalizing k with
  | done a => exact within_mono (rest a) (by omega)
  | count c next ih =>
    exact ⟨by have := first.1; omega, within_mono (ih first.2) (taken k first.1)⟩
  | observe l took next ih =>
    exact ⟨by have := first.1; omega, within_mono (ih first.2) (taken k first.1)⟩
  | askVerdict token next ih =>
    exact ⟨by have := first.1; omega, fun answer =>
      within_mono (ih answer (first.2 answer)) (taken k first.1)⟩
  | askMemberships caller userId cancelled next ih =>
    exact ⟨by have := first.1; omega, fun answer =>
      within_mono (ih answer (first.2 answer)) (taken k first.1)⟩
  | askSettings caller tenantId cancelled next ih =>
    exact ⟨by have := first.1; omega, fun answer =>
      within_mono (ih answer (first.2 answer)) (taken k first.1)⟩
  | publish tenancy inbound next ih =>
    exact ⟨by have := first.1; omega, fun filled =>
      within_mono (ih filled (first.2 filled)) (taken k first.1)⟩

theorem within_attempt {first : Plan (Except Failure α)} {second : α → Plan (Except Failure β)}
    {k m : Nat} (within : first.Within k) (rest : ∀ a, (second a).Within m) :
    (first.attempt second).Within (k + m) := by
  apply within_bind within
  intro result
  cases result with
  | ok a => exact rest a
  | error f => trivial

theorem run_attempt (services : Services σ) (first : Plan (Except Failure α))
    (second : α → Plan (Except Failure β)) :
    (first.attempt second).run services =
      Call.andThen (first.run services) fun a => (second a).run services := by
  funext site
  simp only [attempt, run_bind, Call.andThen]
  rcases first.run services site with ⟨_ | _, _⟩ <;> rfl

def caller (headers : List Http.Header) : Plan (Except Failure Caller) :=
  match bearerToken (Http.firstText? headers "authorization") with
  | .error f => done (.error f)
  | .ok none => done (.ok .anonymous)
  | .ok (some token) =>
    askVerdict token fun answer =>
      done (answer.bind fun verdict => verdict.callerId.map .authenticated)

def measured (lookups errors : Counter) (latency : Latency) (took : UInt64)
    (lookup : Plan (Except Failure α)) : Plan (Except Failure α) :=
  count lookups <| lookup.bind fun
    | .ok a => observe latency took (done (.ok a))
    | .error f => observe latency took (count errors (done (.error f)))

def memberships (took : Durations) (caller : Caller) (id : String) (cancelled : Bool) :
    Plan (Except Failure User) :=
  measured .membershipLookups .membershipLookupErrors .membership took.memberships
    (askMemberships caller id cancelled done)

def hydrate (took : Durations) (caller : Caller) (tenantId : String) (cancelled : Bool) :
    Plan (Except Failure Outcome) :=
  (measured .settingsLookups .settingsLookupErrors .settings took.settings
    (askSettings caller tenantId cancelled done)).attempt fun settings =>
      done (.ok (.forwardWith ⟨tenantId, settings⟩))

def resolveAnonymous (isValid : String → Bool) (took : Durations) (detection : Detection)
    (cancelled : Bool) : Plan (Except Failure Outcome) :=
  match detection.tenantId with
  | none => done (.ok (if detection.required then .reject .missingTenantId else .forward))
  | some tenantId =>
    if isValid tenantId then hydrate took .anonymous tenantId cancelled
    else done (.ok (.reject .invalidTenantId))

def resolveDefault (took : Durations) (caller : Caller) (user : User) (cancelled : Bool) :
    Plan (Except Failure Outcome) :=
  match user.defaultMemberships with
  | [membership] =>
    (hydrate took caller membership.organizationId cancelled).attempt fun outcome =>
      count .defaultTenanciesResolved (done (.ok outcome))
  | _ => done (.ok (.reject .missingTenantId))

def resolveAuthenticated (isValid : String → Bool) (took : Durations) (callerId : String)
    (detection : Detection) (cancelled : Bool) : Plan (Except Failure Outcome) :=
  let caller := Caller.authenticated callerId
  match detection.tenantId with
  | some tenantId =>
    if isValid tenantId then
      (memberships took caller callerId cancelled).attempt fun user =>
        match user.membershipOf tenantId with
        | some _ => hydrate took caller tenantId cancelled
        | none => done (.ok (.reject (.notAMember tenantId)))
    else done (.ok (.reject .invalidTenantId))
  | none =>
    if detection.required then
      (memberships took caller callerId cancelled).attempt fun user =>
        resolveDefault took caller user cancelled
    else done (.ok .forward)

def resolve (isValid : String → Bool) (took : Durations) (caller : Caller) (detection : Detection)
    (cancelled : Bool) : Plan (Except Failure Outcome) :=
  match caller with
  | .anonymous => resolveAnonymous isValid took detection cancelled
  | .authenticated id => resolveAuthenticated isValid took id detection cancelled

def settle (inbound : Inbound) : Except Failure Outcome → Plan (Except Http.Response Inbound)
  | .error f =>
    let answered := done (.error (Problem.ofFailure f).respond)
    if f.isCancelled then count .cancelledRequests answered else answered
  | .ok .forward => count .forwardedUntenanted (done (.ok inbound))
  | .ok (.forwardWith tenancy) =>
    publish tenancy inbound fun
      | .ok inbound => count .tenanciesResolved (done (.ok inbound))
      | .error f => done (.error (Problem.ofFailure f).respond)
  | .ok (.reject rejection) =>
    count (rejectionCounter rejection.code) (done (.error (Problem.ofRejection rejection).respond))

def admitted (table : RouteTable) (isValid : String → Bool) (took : Durations) (inbound : Inbound) :
    Plan (Except Http.Response Inbound) :=
  match operationOf table inbound with
  | none => done (.ok inbound)
  | some d =>
    if mayCall d inbound.extensions.caller then
      count .requestsInspected <|
        (resolve isValid took inbound.extensions.callerOrAnonymous (detectionOf d inbound)
          inbound.extensions.isCancelled).bind fun result =>
            observe .resolution took.resolution (settle inbound result)
    else
      done (.error (Problem.unauthenticated
        (d.operation ++ " requires an authenticated caller")).respond)

def steps (table : RouteTable) (isValid : String → Bool) (took : Durations) (inbound : Inbound) :
    Plan (Except Http.Response Inbound) :=
  (caller inbound.request.headers).bind fun
    | .ok caller => admitted table isValid took (inbound.withCaller caller)
    | .error f => done (.error (Problem.ofFailure f).respond)

section Run

variable (services : Services σ) (took : Durations)

theorem run_caller (headers : List Http.Header) :
    (caller headers).run services = callerOf services.introspect headers := by
  funext site
  cases present : Http.firstText? headers "authorization" with
  | none =>
    rw [callerOf_absent _ _ present, caller, present]
    rfl
  | some header =>
    rcases bearerToken_cases header with ⟨message, refused⟩ | ⟨token, read, _⟩
    · rw [callerOf_refused _ _ present refused, caller, present, refused]
      rfl
    · rw [callerOf_token _ _ present read, caller, present, read]
      rfl

theorem run_measured (lookups errors : Counter) (latency : Latency) (took : UInt64)
    {lookup : Plan (Except Failure α)} {call : Call σ α}
    (carried : lookup.run services = call.onPart Site.services Site.putServices) :
    (measured lookups errors latency took lookup).run services =
      Resolver.measured lookups errors latency took call := by
  funext site
  simp only [measured, run, run_bind, Resolver.measured, carried]
  rcases call.onPart Site.services Site.putServices (site.count lookups) with ⟨_ | _, _⟩ <;> rfl

theorem run_memberships (caller : Caller) (id : String) (cancelled : Bool) :
    (memberships took caller id cancelled).run services =
      Resolver.memberships services.toCollaborators took caller id cancelled :=
  run_measured services _ _ _ _ rfl

theorem run_hydrate (caller : Caller) (tenantId : String) (cancelled : Bool) :
    (hydrate took caller tenantId cancelled).run services =
      Resolver.hydrate services.toCollaborators took caller tenantId cancelled := by
  have carried : (askSettings caller tenantId cancelled done).run services =
      (services.settings caller tenantId cancelled).onPart Site.services Site.putServices := rfl
  rw [hydrate, run_attempt, run_measured services _ _ _ _ carried]
  rfl

variable (isValid : String → Bool)

theorem run_resolveAnonymous (detection : Detection) (cancelled : Bool) :
    (resolveAnonymous isValid took detection cancelled).run services =
      Resolver.resolveAnonymous isValid services.toCollaborators took detection cancelled := by
  simp only [resolveAnonymous, Resolver.resolveAnonymous]
  cases detection.tenantId with
  | none => rfl
  | some tenantId =>
    by_cases valid : isValid tenantId = true
    · simp only [valid, ↓reduceIte]
      exact run_hydrate services took _ _ _
    · simp only [valid]
      rfl

theorem run_resolveDefault (caller : Caller) (user : User) (cancelled : Bool) :
    (resolveDefault took caller user cancelled).run services =
      Resolver.resolveDefault services.toCollaborators took caller user cancelled := by
  unfold resolveDefault Resolver.resolveDefault
  match user.defaultMemberships with
  | [] => rfl
  | [membership] =>
    simp only [run_attempt, run_hydrate]
    rfl
  | _ :: _ :: _ => rfl

theorem run_resolveAuthenticated (callerId : String) (detection : Detection) (cancelled : Bool) :
    (resolveAuthenticated isValid took callerId detection cancelled).run services =
      Resolver.resolveAuthenticated isValid services.toCollaborators took callerId detection
        cancelled := by
  simp only [resolveAuthenticated, Resolver.resolveAuthenticated]
  cases detection.tenantId with
  | none =>
    by_cases required : detection.required = true
    · simp only [required, ↓reduceIte, run_attempt, run_memberships, run_resolveDefault]
      rfl
    · simp only [required]
      rfl
  | some tenantId =>
    by_cases valid : isValid tenantId = true
    · simp only [valid, ↓reduceIte, run_attempt, run_memberships, Call.bind_eq]
      congr 1
      funext user
      cases user.membershipOf tenantId with
      | some _ => exact run_hydrate services took _ _ _
      | none => rfl
    · simp only [valid]
      rfl

theorem run_resolve (caller : Caller) (detection : Detection) (cancelled : Bool) :
    (resolve isValid took caller detection cancelled).run services =
      Resolver.resolve isValid services.toCollaborators took caller detection cancelled := by
  cases caller with
  | anonymous => exact run_resolveAnonymous services took isValid detection cancelled
  | authenticated id => exact run_resolveAuthenticated services took isValid id detection cancelled

theorem run_settle (inbound : Inbound) (result : Except Failure Outcome) (site : Site σ) :
    (settle inbound result).run services site = Step.settle inbound site result := by
  rcases result with f | outcome
  · simp only [settle, Step.settle]
    split <;> rfl
  · cases outcome with
    | forward => rfl
    | reject rejection => rfl
    | forwardWith tenancy =>
      simp only [settle, Step.settle, run]
      cases Gate.publish tenancy inbound <;> rfl

theorem run_admitted (table : RouteTable) (inbound : Inbound) (site : Site σ) :
    (admitted table services.isValid took inbound).run services site =
      (Step.allow table).andThen (Step.resolve table services took) inbound site := by
  simp only [admitted, Step.andThen, Step.allow, Step.resolve]
  cases found : operationOf table inbound with
  | none => simp only [run, found]
  | some d =>
    by_cases may : mayCall d inbound.extensions.caller = true
    · simp only [may, ↓reduceIte, run, run_bind, run_resolve, run_settle, found, decideTenancy]
    · simp only [may, Bool.false_eq_true, ↓reduceIte, run]

theorem run_steps (table : RouteTable) (inbound : Inbound) :
    (steps table services.isValid took inbound).run services =
      Step.all table services took inbound := by
  funext site
  rw [steps, run_bind, run_caller]
  simp only [Step.all, Step.andThen, Step.identify]
  rcases callerOf services.introspect inbound.request.headers site with ⟨f | caller, s⟩
  · rfl
  · exact run_admitted services took table (inbound.withCaller caller) s

end Run

section Open

variable (took : Durations)

theorem open_measured (lookups errors : Counter) (latency : Latency) (took : UInt64)
    {lookup : Plan (Except Failure α)} (opens : lookup.Open) :
    (measured lookups errors latency took lookup).Open := by
  apply open_bind opens
  intro result
  cases result <;> trivial

theorem open_memberships (caller : Caller) (id : String) (cancelled : Bool) :
    (memberships took caller id cancelled).Open :=
  open_measured _ _ _ _ fun _ => trivial

theorem open_hydrate (caller : Caller) (tenantId : String) (cancelled : Bool) :
    (hydrate took caller tenantId cancelled).Open :=
  open_attempt (open_measured _ _ _ _ fun _ => trivial) fun _ => trivial

theorem open_resolve (isValid : String → Bool) (caller : Caller) (detection : Detection)
    (cancelled : Bool) : (resolve isValid took caller detection cancelled).Open := by
  cases caller with
  | anonymous =>
    simp only [resolve, resolveAnonymous]
    split
    · trivial
    · split
      · exact open_hydrate took _ _ _
      · trivial
  | authenticated id =>
    simp only [resolve, resolveAuthenticated]
    split
    · split
      · apply open_attempt (open_memberships took _ _ _)
        intro user
        split
        · exact open_hydrate took _ _ _
        · trivial
      · trivial
    · split
      · apply open_attempt (open_memberships took _ _ _)
        intro user
        simp only [resolveDefault]
        split
        · exact open_attempt (open_hydrate took _ _ _) fun _ => trivial
        · trivial
      · trivial

theorem open_settle {inbound : Inbound} (unset : inbound.extensions.tenancy = none)
    (result : Except Failure Outcome) : (settle inbound result).Open := by
  rcases result with f | outcome
  · simp only [settle]
    split <;> trivial
  · cases outcome with
    | forward => trivial
    | reject rejection => trivial
    | forwardWith tenancy =>
      refine ⟨unset, fun filled => ?_⟩
      cases filled <;> trivial

theorem open_steps (table : RouteTable) (isValid : String → Bool) {inbound : Inbound}
    (unset : inbound.extensions.tenancy = none) : (steps table isValid took inbound).Open := by
  apply open_bind
  · unfold caller
    split
    · trivial
    · trivial
    · exact fun _ => trivial
  · intro found
    cases found with
    | error f => trivial
    | ok caller =>
      simp only [admitted]
      split
      · trivial
      · split
        · apply open_bind (open_resolve took isValid _ _ _)
          intro result
          have unfilled : (inbound.withCaller caller).extensions.tenancy = none := unset
          exact open_settle unfilled result
        · trivial

end Open

section Within

variable (took : Durations)

theorem within_measured (lookups errors : Counter) (latency : Latency) (took : UInt64) {k : Nat}
    {lookup : Plan (Except Failure α)} (within : lookup.Within k) :
    (measured lookups errors latency took lookup).Within (k + 3) := by
  refine ⟨by omega, within_bind (m := 2) within ?_⟩
  intro result
  cases result with
  | ok a => exact ⟨by decide, trivial⟩
  | error f => exact ⟨by decide, by decide, trivial⟩

theorem within_memberships (caller : Caller) (id : String) (cancelled : Bool) :
    (memberships took caller id cancelled).Within 4 :=
  within_measured _ _ _ _ (k := 1) ⟨by decide, fun _ => trivial⟩

theorem within_hydrate (caller : Caller) (tenantId : String) (cancelled : Bool) :
    (hydrate took caller tenantId cancelled).Within 4 :=
  within_attempt (m := 0) (within_measured _ _ _ _ (k := 1) ⟨by decide, fun _ => trivial⟩)
    fun _ => trivial

theorem within_resolve (isValid : String → Bool) (caller : Caller) (detection : Detection)
    (cancelled : Bool) : (resolve isValid took caller detection cancelled).Within 9 := by
  cases caller with
  | anonymous =>
    simp only [resolve, resolveAnonymous]
    split
    · trivial
    · split
      · exact within_mono (within_hydrate took _ _ _) (by decide)
      · trivial
  | authenticated id =>
    simp only [resolve, resolveAuthenticated]
    split
    · split
      · apply within_attempt (m := 5) (within_memberships took _ _ _)
        intro user
        split
        · exact within_mono (within_hydrate took _ _ _) (by decide)
        · trivial
      · trivial
    · split
      · apply within_attempt (m := 5) (within_memberships took _ _ _)
        intro user
        simp only [resolveDefault]
        split
        · exact within_attempt (m := 1) (within_hydrate took _ _ _) fun _ => ⟨by decide, trivial⟩
        · trivial
      · trivial

theorem within_settle (inbound : Inbound) (result : Except Failure Outcome) :
    (settle inbound result).Within 2 := by
  rcases result with f | outcome
  · simp only [settle]
    split
    · exact ⟨by decide, trivial⟩
    · trivial
  · cases outcome with
    | forward => exact ⟨by decide, trivial⟩
    | reject rejection => exact ⟨by decide, trivial⟩
    | forwardWith tenancy =>
      refine ⟨by decide, fun filled => ?_⟩
      cases filled with
      | ok inbound => exact ⟨by decide, trivial⟩
      | error f => trivial

theorem within_steps (table : RouteTable) (isValid : String → Bool) (inbound : Inbound) :
    (steps table isValid took inbound).Within 14 := by
  apply within_bind (k := 1) (m := 13)
  · unfold caller
    split
    · trivial
    · trivial
    · exact ⟨by decide, fun _ => trivial⟩
  · intro found
    cases found with
    | error f => trivial
    | ok caller =>
      simp only [admitted]
      split
      · trivial
      · split
        · refine ⟨by decide, within_bind (m := 3) (within_resolve took isValid _ _ _) ?_⟩
          intro result
          exact ⟨by decide, within_settle _ result⟩
        · trivial

end Within

end Plan

end TenantGate
