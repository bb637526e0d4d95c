import TenantGate.Proofs.Decision
import TenantGate.Proofs.Registration

/-!
The layers around an operation as steps: a step lets the request go on, with what it found out, or
answers it. What is behind a layer is run once for a request that goes on and never for one that is
answered, whatever it is. A tenanted operation is run with the tenancy of the decision or not at all.
-/
namespace TenantGate.Gate

open Api Telemetry

variable {σ : Type}

abbrev Step (σ : Type) := Inbound → Site σ → Except Http.Response Inbound × Site σ

namespace Step

def layer (step : Step σ) : Layer σ := fun next inbound site =>
  match step inbound site with
  | (.ok inbound, site) => next inbound site
  | (.error response, site) => (response, site)

def andThen (first second : Step σ) : Step σ := fun inbound site =>
  match first inbound site with
  | (.ok inbound, site) => second inbound site
  | (.error response, site) => (.error response, site)

theorem layer_andThen (first second : Step σ) (next : Handler σ) :
    (first.andThen second).layer next = first.layer (second.layer next) := by
  funext inbound site
  simp only [layer, andThen]
  rcases first inbound site with ⟨_ | _, _⟩ <;> rfl

def identify (introspect : String → Call σ Auth.Introspection) : Step σ := fun inbound site =>
  match callerOf introspect inbound.request.headers site with
  | (.ok caller, site) => (.ok (inbound.withCaller caller), site)
  | (.error f, site) => (.error (Problem.ofFailure f).respond, site)

def allow (table : RouteTable) : Step σ := fun inbound site =>
  match operationOf table inbound with
  | some d =>
    if mayCall d inbound.extensions.caller then (.ok inbound, site)
    else
      (.error (Problem.unauthenticated
        (d.operation ++ " requires an authenticated caller")).respond, site)
  | none => (.ok inbound, site)

def settle (inbound : Inbound) (site : Site σ) :
    Except Failure Outcome → Except Http.Response Inbound × Site σ
  | .error f =>
    (.error (Problem.ofFailure f).respond,
      if f.isCancelled then site.count .cancelledRequests else site)
  | .ok .forward => (.ok inbound, site.count .forwardedUntenanted)
  | .ok (.forwardWith tenancy) =>
    match publish tenancy inbound with
    | .ok inbound => (.ok inbound, site.count .tenanciesResolved)
    | .error f => (.error (Problem.ofFailure f).respond, site)
  | .ok (.reject rejection) =>
    (.error (Problem.ofRejection rejection).respond, site.count (rejectionCounter rejection.code))

def resolve (table : RouteTable) (services : Services σ) (took : Durations) : Step σ :=
  fun inbound site =>
    match operationOf table inbound with
    | none => (.ok inbound, site)
    | some d =>
      let (result, site) := decideTenancy services took d inbound site
      settle inbound (site.observe .resolution took.resolution) result

def all (table : RouteTable) (services : Services σ) (took : Durations) : Step σ :=
  (identify services.introspect).andThen ((allow table).andThen (resolve table services took))

theorem authenticate_eq (introspect : String → Call σ Auth.Introspection) :
    authenticate introspect = (identify introspect).layer := by
  funext next inbound site
  simp only [authenticate, layer, identify]
  rcases callerOf introspect inbound.request.headers site with ⟨_ | _, _⟩ <;> rfl

theorem authorize_eq (table : RouteTable) :
    (authorize table : Layer σ) = (allow table).layer := by
  funext next inbound site
  simp only [authorize, layer, allow]
  cases operationOf table inbound with
  | none => rfl
  | some d =>
    simp only
    by_cases may : mayCall d inbound.extensions.caller = true
    · simp only [may, ↓reduceIte]
    · simp only [may, Bool.false_eq_true, ↓reduceIte]

theorem conclude_eq (next : Handler σ) (inbound : Inbound) (site : Site σ)
    (result : Except Failure Outcome) :
    conclude next inbound site result =
      match settle inbound site result with
      | (.ok inbound, site) => next inbound site
      | (.error response, site) => (response, site) := by
  rcases result with f | outcome
  · rfl
  · cases outcome with
    | forward => rfl
    | reject rejection => rfl
    | forwardWith tenancy =>
      simp only [conclude, settle]
      cases publish tenancy inbound <;> rfl

theorem multiTenancy_eq (table : RouteTable) (services : Services σ) (took : Durations) :
    multiTenancy table services took = (resolve table services took).layer := by
  funext next inbound site
  simp only [multiTenancy, layer, resolve]
  cases operationOf table inbound with
  | none => rfl
  | some d => exact conclude_eq next inbound _ _

theorem operationLayers_eq (table : RouteTable) (services : Services σ) (took : Durations)
    (next : Handler σ) :
    wrapAll (Host.operationLayers table services took) next =
      (all table services took).layer next := by
  simp only [wrapAll, Host.operationLayers, List.foldr, all, layer_andThen, authenticate_eq,
    authorize_eq, multiTenancy_eq]

end Step

/-- The layer hands the request on once and does nothing with what comes back. -/
def HandsOn (layer : Layer σ) (inbound : Inbound) (site : Site σ) (inbound' : Inbound)
    (site' : Site σ) : Prop :=
  ∀ next, layer next inbound site = next inbound' site'

/-- The layer answers the request without what is behind it. -/
def AnswersItself (layer : Layer σ) (inbound : Inbound) (site : Site σ)
    (response : Http.Response) (site' : Site σ) : Prop :=
  ∀ next, layer next inbound site = (response, site')

namespace Step

variable (step : Step σ) (inbound : Inbound) (site : Site σ)

theorem handsOn_iff (inbound' : Inbound) (site' : Site σ) :
    HandsOn step.layer inbound site inbound' site' ↔ step inbound site = (.ok inbound', site') := by
  classical
  constructor
  · intro handed
    let tell (yes no : Http.Response) : Handler σ := fun i s =>
      (if i = inbound' ∧ s = site' then yes else no, s)
    -- Two such handlers with their answers exchanged: what the step answers itself, or hands on
    -- otherwise, cannot agree with both.
    have shown (yes no : Http.Response) : (step.layer (tell yes no) inbound site).1 = yes := by
      rw [handed]
      exact if_pos ⟨rfl, rfl⟩
    have first := shown (.bare .ok) (.bare .notFound)
    have second := shown (.bare .notFound) (.bare .ok)
    simp only [layer] at first second
    rcases stepped : step inbound site with ⟨response | i, s⟩
    · rw [stepped] at first second
      exact absurd (first.symm.trans second) (by decide)
    · rw [stepped] at first
      by_cases same : i = inbound' ∧ s = site'
      · rw [same.1, same.2]
      · simp only [tell, if_neg same] at first
        exact absurd first (by decide)
  · intro stepped next
    simp only [layer, stepped]

theorem answersItself_iff (response : Http.Response) (site' : Site σ) :
    AnswersItself step.layer inbound site response site' ↔
      step inbound site = (.error response, site') := by
  constructor
  · intro answered
    have first := answered fun _ s => (.bare .ok, s)
    have second := answered fun _ s => (.bare .notFound, s)
    simp only [layer] at first second
    rcases stepped : step inbound site with ⟨own | i, s⟩
    · rw [stepped] at first
      simp only [Prod.mk.injEq] at first
      rw [first.1, first.2]
    · rw [stepped] at first second
      have same : Http.Response.bare .ok = Http.Response.bare .notFound :=
        congrArg Prod.fst (first.trans second.symm)
      exact absurd same (by decide)
  · intro stepped next
    simp only [layer, stepped]

theorem not_both {inbound' : Inbound} {site' site'' : Site σ} {response : Http.Response}
    (handed : HandsOn step.layer inbound site inbound' site')
    (answered : AnswersItself step.layer inbound site response site'') : False := by
  rw [handsOn_iff] at handed
  rw [answersItself_iff, handed] at answered
  exact absurd (congrArg Prod.fst answered) (by simp)

variable {step inbound site}

theorem andThen_ok {second : Step σ} {inbound' : Inbound} {site' : Site σ}
    (went : step.andThen second inbound site = (.ok inbound', site')) :
    ∃ i s, step inbound site = (.ok i, s) ∧ second i s = (.ok inbound', site') := by
  simp only [andThen] at went
  rcases first : step inbound site with ⟨response | i, s⟩
  · rw [first] at went
    exact absurd (congrArg Prod.fst went) (by simp)
  · rw [first] at went
    exact ⟨i, s, rfl, went⟩

theorem identify_ok {introspect : String → Call σ Auth.Introspection} {inbound' : Inbound}
    {site' : Site σ} (went : identify introspect inbound site = (.ok inbound', site')) :
    ∃ caller, callerOf introspect inbound.request.headers site = (.ok caller, site') ∧
      inbound' = inbound.withCaller caller := by
  simp only [identify] at went
  rcases found : callerOf introspect inbound.request.headers site with ⟨f | caller, s⟩
  · rw [found] at went
    exact absurd (congrArg Prod.fst went) (by simp)
  · rw [found] at went
    simp only [Prod.mk.injEq, Except.ok.injEq] at went
    rw [went.2]
    exact ⟨caller, rfl, went.1.symm⟩

theorem allow_ok {table : RouteTable} {inbound' : Inbound} {site' : Site σ}
    (went : allow table inbound site = (.ok inbound', site')) :
    inbound' = inbound ∧ site' = site := by
  simp only [allow] at went
  split at went
  · split at went
    · simp only [Prod.mk.injEq, Except.ok.injEq] at went
      exact ⟨went.1.symm, went.2.symm⟩
    · exact absurd (congrArg Prod.fst went) (by simp)
  · simp only [Prod.mk.injEq, Except.ok.injEq] at went
    exact ⟨went.1.symm, went.2.symm⟩

/-- A request that all steps let go on has been given a caller, and then its tenancy was decided. -/
theorem all_ok {table : RouteTable} {services : Services σ} {took : Durations} {inbound' : Inbound}
    {site' : Site σ} (went : all table services took inbound site = (.ok inbound', site')) :
    ∃ caller s, callerOf services.introspect inbound.request.headers site = (.ok caller, s) ∧
      resolve table services took (inbound.withCaller caller) s = (.ok inbound', site') := by
  obtain ⟨i, s, identified, rest⟩ := andThen_ok went
  obtain ⟨caller, known, rfl⟩ := identify_ok identified
  obtain ⟨i, s', allowed, resolved⟩ := andThen_ok rest
  obtain ⟨rfl, rfl⟩ := allow_ok allowed
  exact ⟨caller, s', known, resolved⟩

inductive Settled (inbound : Inbound) :
    Except Failure Outcome → Except Http.Response Inbound → Prop where
  | forward : Settled inbound (.ok .forward) (.ok inbound)
  | forwardWith (tenancy : Tenancy) :
      Settled inbound (.ok (.forwardWith tenancy)) (.ok (inbound.withSlot ⟨some tenancy⟩))
  | reject (r : Rejection) :
      Settled inbound (.ok (.reject r)) (.error (Problem.ofRejection r).respond)
  | failed (f : Failure) : Settled inbound (.error f) (.error (Problem.ofFailure f).respond)

theorem settle_settled (unset : inbound.extensions.tenancy = none)
    (result : Except Failure Outcome) : Settled inbound result (settle inbound site result).1 := by
  rcases result with f | outcome
  · exact .failed f
  · cases outcome with
    | forward => exact .forward
    | reject r => exact .reject r
    | forwardWith tenancy =>
      have published : publish tenancy inbound = .ok (inbound.withSlot ⟨some tenancy⟩) := by
        simp only [publish, unset]
        rfl
      simp only [settle, published]
      exact .forwardWith tenancy

theorem problem_of_settled {result : Except Failure Outcome} {response : Http.Response}
    (settled : Settled inbound result (.error response)) : ∃ p : Problem, response = p.respond := by
  cases settled with
  | reject r => exact ⟨_, rfl⟩
  | failed f => exact ⟨_, rfl⟩

theorem tenancy?_of_settled {result : Except Failure Outcome} {inbound' : Inbound}
    (unset : inbound.extensions.tenancy = none) (settled : Settled inbound result (.ok inbound'))
    (tenancy : Tenancy) :
    inbound'.extensions.tenancy? = some tenancy ↔ result = .ok (.forwardWith tenancy) := by
  cases settled with
  | forward => simp [Extensions.tenancy?, unset]
  | forwardWith held => simp [Extensions.tenancy?, Inbound.withSlot]

theorem settle_services (inbound : Inbound) (site : Site σ) (result : Except Failure Outcome) :
    (settle inbound site result).2.services = site.services := by
  rcases result with f | outcome
  · simp only [settle]
    split <;> rfl
  · cases outcome with
    | forward => rfl
    | reject r => rfl
    | forwardWith tenancy =>
      simp only [settle]
      cases publish tenancy inbound <;> rfl

variable {table : RouteTable} {services : Services σ} {took : Durations} {d : Descriptor}

theorem resolve_found (found : operationOf table inbound = some d) :
    resolve table services took inbound site =
      settle inbound ((decideTenancy services took d inbound site).2.observe .resolution
        took.resolution) (decideTenancy services took d inbound site).1 := by
  simp only [resolve, found]

theorem resolve_settled (found : operationOf table inbound = some d)
    (unset : inbound.extensions.tenancy = none) :
    Settled inbound (decideTenancy services took d inbound site).1
      (resolve table services took inbound site).1 := by
  rw [resolve_found found]
  exact settle_settled unset _

/-- A request without a slot that all steps let go on has a caller, and if it is for an operation
its tenancy was decided. -/
theorem all_settled {inbound' : Inbound} {site' : Site σ}
    (unset : inbound.extensions.tenancy = none)
    (went : all table services took inbound site = (.ok inbound', site')) :
    ∃ caller s, callerOf services.introspect inbound.request.headers site = (.ok caller, s) ∧
      resolve table services took (inbound.withCaller caller) s = (.ok inbound', site') ∧
      ((operationOf table inbound = none ∧ inbound' = inbound.withCaller caller) ∨
        ∃ d, operationOf table inbound = some d ∧
          Settled (inbound.withCaller caller)
            (decideTenancy services took d (inbound.withCaller caller) s).1 (.ok inbound')) := by
  obtain ⟨caller, s, known, resolved⟩ := all_ok went
  refine ⟨caller, s, known, resolved, ?_⟩
  cases found : operationOf table inbound with
  | none =>
    have passed : operationOf table (inbound.withCaller caller) = none := found
    simp only [resolve, passed, Prod.mk.injEq, Except.ok.injEq] at resolved
    exact .inl ⟨rfl, resolved.1.symm⟩
  | some d =>
    have settled : Settled (inbound.withCaller caller)
        (decideTenancy services took d (inbound.withCaller caller) s).1
        (resolve table services took (inbound.withCaller caller) s).1 :=
      resolve_settled found unset
    rw [resolved] at settled
    exact .inr ⟨d, rfl, settled⟩

end Step

end TenantGate.Gate
