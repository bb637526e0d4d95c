import TenantGate.Proofs.AskedAlike
import TenantGate.Proofs.Verdicts
import TenantGate.Service.World

/-!
Where a request for an operation ends: at the first checkpoint that holds it up, or at the handler.
What is behind that checkpoint asks no service, counts nothing and has no use for the body, whatever
else is wrong with the request.
-/
namespace TenantGate.Gate

open Api Telemetry

variable {σ : Type}

def Event.isLookup : Event → Bool
  | .memberships .. => true
  | .settings .. => true
  | _ => false

def Event.failure? : Event → Option Failure
  | .introspection _ (.error f) => some f
  | .memberships _ _ (.error f) => some f
  | .settings _ _ (.error f) => some f
  | _ => none

/-- What the identity service is asked about a request with these headers, and answers. -/
def asked (services : Services σ) (headers : List Http.Header) (site : Site σ) : List Event :=
  match Auth.bearerToken (Http.firstText? headers "authorization") with
  | .ok (some token) => [.introspection token (services.introspect token site.services).1]
  | _ => []

theorem callerOf_noting (services : Services σ) (headers : List Http.Header) (site : Site σ) :
    ∃ n : Site (Noted σ), callerOf services.noting.introspect headers site.noting =
        ((callerOf services.introspect headers site).1, n) ∧
      n.forget = (callerOf services.introspect headers site).2 ∧
      n.services.events = asked services headers site := by
  obtain ⟨same, left⟩ := alike_callerOf (noting_services_alike services).introspect headers _ _
    (noting_site_alike site)
  refine ⟨_, Prod.ext same rfl, forget_of_alike left, ?_⟩
  cases present : Http.firstText? headers "authorization" with
  | none =>
    rw [callerOf_absent _ _ present, asked, present]
    rfl
  | some header =>
    rcases Auth.bearerToken_cases header with ⟨message, refused⟩ | ⟨token, read, _⟩
    · rw [callerOf_refused _ _ present refused, asked, present, refused]
      rfl
    · rw [callerOf_token _ _ present read, asked, present, read]
      rfl

theorem lookups_of_asked (services : Services σ) (headers : List Http.Header) (site : Site σ) :
    (asked services headers site).filter Event.isLookup = [] := by
  unfold asked
  split <;> rfl

theorem quiet_asked (services : Services σ) (headers : List Http.Header) (site : Site σ) :
    (asked services headers site).filter Event.isHandling = [] := by
  unfold asked
  split <;> rfl

/-- The caller of a request is unknown because its header is bad, because the identity service does
not accept its token, or because that service fails. -/
theorem unknown_callerOf {services : Services σ} {headers : List Http.Header} {site s : Site σ}
    {f : Failure} (unknown : callerOf services.introspect headers site = (.error f, s)) :
    (∃ message, f = .unauthenticated message) ∨
      ∃ token, asked services headers site = [.introspection token (.error f)] := by
  cases present : Http.firstText? headers "authorization" with
  | none =>
    rw [callerOf_absent _ _ present] at unknown
    exact absurd (congrArg Prod.fst unknown) (by simp)
  | some header =>
    rcases Auth.bearerToken_cases header with ⟨message, refused⟩ | ⟨token, read, _⟩
    · rw [callerOf_refused _ _ present refused] at unknown
      exact .inl ⟨message, (Except.error.inj (congrArg Prod.fst unknown)).symm⟩
    · have answer := congrArg Prod.fst unknown
      rw [callerOf_token _ _ present read] at answer
      cases verdict? : (services.introspect token site.services).1 with
      | error g =>
        rw [verdict?] at answer
        refine .inr ⟨token, ?_⟩
        rw [asked, present, read, ← Except.error.inj answer, ← verdict?]
      | ok verdict =>
        simp only [verdict?, Except.bind] at answer
        cases decided : verdict.callerId with
        | ok c =>
          rw [decided] at answer
          exact absurd answer (by simp [Except.map])
        | error g =>
          rw [decided] at answer
          rw [← Except.error.inj answer]
          exact .inl (Auth.Introspection.unauthenticated_of_callerId decided)

theorem callerOf_of_failed {services : Services σ} {headers : List Http.Header} {site : Site σ}
    {x : Event} {f : Failure} (among : x ∈ asked services headers site)
    (failed : x.failure? = some f) : (callerOf services.introspect headers site).1 = .error f := by
  cases present : Http.firstText? headers "authorization" with
  | none =>
    rw [asked, present] at among
    exact absurd among (by simp [Auth.bearerToken])
  | some header =>
    rcases Auth.bearerToken_cases header with ⟨message, refused⟩ | ⟨token, read, _⟩
    · rw [asked, present, refused] at among
      exact absurd among (by simp)
    · rw [asked, present, read] at among
      rw [List.mem_singleton.mp among] at failed
      rw [callerOf_token _ _ present read]
      cases verdict? : (services.introspect token site.services).1 with
      | ok verdict =>
        rw [verdict?] at failed
        exact absurd failed (by simp [Event.failure?])
      | error g =>
        rw [verdict?] at failed
        rw [← Option.some.inj failed]
        rfl

theorem not_failed_of_known {services : Services σ} {headers : List Http.Header} {site s : Site σ}
    {caller : Caller} (known : callerOf services.introspect headers site = (.ok caller, s))
    {x : Event} (among : x ∈ asked services headers site) : x.failure? = none := by
  cases failed : x.failure? with
  | none => rfl
  | some f =>
    have answer := callerOf_of_failed among failed
    rw [known] at answer
    exact absurd answer (by simp)

theorem callerOf_metrics (introspect : String → Call σ Auth.Introspection)
    (headers : List Http.Header) (site : Site σ) :
    (callerOf introspect headers site).2.metrics = site.metrics := by
  rcases callerOf_asks introspect headers site with same | ⟨token, once⟩
  · rw [same]
  · rw [once]
    rfl

theorem result_of_failed {isValid : String → Bool} {answers : Resolver.Answers} {caller : Caller}
    {detection : Detection} {made : List Event} {result : Except Failure Outcome}
    (rule : Resolver.Decides isValid answers caller detection made result) {x : Event} {f : Failure}
    (among : x ∈ made) (failed : x.failure? = some f) : result = .error f := by
  have hydrated {c : Caller} {t : String}
      (failed : (Event.settings c t (answers.settings t)).failure? = some f) :
      Resolver.hydrated t (answers.settings t) = .error f := by
    cases answered : answers.settings t with
    | ok settings =>
      rw [answered] at failed
      exact absurd failed (by simp [Event.failure?])
    | error g =>
      rw [answered] at failed
      rw [← Option.some.inj failed]
      rfl
  cases rule with
  | anonymousMissing | anonymousForward | invalid | authenticatedForward =>
    exact absurd among (by simp)
  | notMember | noSoleDefault =>
    rw [List.mem_singleton.mp among] at failed
    exact absurd failed (by simp [Event.failure?])
  | memberFailed | defaultFailed =>
    rw [List.mem_singleton.mp among] at failed
    rw [← Option.some.inj failed]
  | anonymousTenant =>
    rw [List.mem_singleton.mp among] at failed
    exact hydrated failed
  | member | soleDefault =>
    rcases List.mem_cons.mp among with rfl | later
    · exact absurd failed (by simp [Event.failure?])
    · rw [List.mem_singleton.mp later] at failed
      exact hydrated failed

theorem failed_of_result {isValid : String → Bool} {answers : Resolver.Answers} {caller : Caller}
    {detection : Detection} {made : List Event} {result : Except Failure Outcome}
    (rule : Resolver.Decides isValid answers caller detection made result) {f : Failure}
    (ends : result = .error f) : ∃ x ∈ made, x.isLookup = true ∧ x.failure? = some f := by
  have settings {c : Caller} {t : String}
      (ends : Resolver.hydrated t (answers.settings t) = .error f) :
      (Event.settings c t (answers.settings t)).failure? = some f := by
    cases answered : answers.settings t with
    | ok settings =>
      rw [answered] at ends
      exact absurd ends (by simp [Resolver.hydrated, Except.map])
    | error g =>
      rw [answered] at ends
      exact congrArg some (Except.error.inj ends)
  cases rule with
  | anonymousMissing | anonymousForward | invalid | authenticatedForward | notMember
  | noSoleDefault => exact absurd ends (by simp)
  | memberFailed | defaultFailed =>
    exact ⟨_, List.mem_singleton_self _, rfl, congrArg some (Except.error.inj ends)⟩
  | anonymousTenant => exact ⟨_, List.mem_singleton_self _, rfl, settings ends⟩
  | member | soleDefault =>
    exact ⟨_, List.mem_cons_of_mem _ (List.mem_singleton_self _), rfl, settings ends⟩

theorem rejection_status (r : Rejection) :
    (Problem.ofRejection r).respond.status = .badRequest ∨
      (Problem.ofRejection r).respond.status = .forbidden := by
  have status : (Problem.ofRejection r).respond.status =
      (Http.Status.ofCode? r.code.httpStatus).getD .badRequest := rfl
  rw [status]
  cases r.code with
  | missingTenantId => exact .inl rfl
  | invalidTenantId => exact .inl rfl
  | userNotAMember => exact .inr rfl

theorem not_mayCall_iff (d : Descriptor) (caller : Caller) :
    ¬ mayCall d (some caller) = true ↔ d.access = .token ∧ caller = .anonymous := by
  unfold mayCall
  cases d.access <;> cases caller <;> simp [Caller.isAuthenticated]

namespace Step

variable {table : RouteTable} {services : Services σ} {d : Descriptor} {inbound : Inbound}
  {site s : Site σ} {caller : Caller} (took : Durations)

variable (table) in
theorem all_unknown {f : Failure}
    (unknown : callerOf services.introspect inbound.request.headers site = (.error f, s)) :
    all table services took inbound site = (.error (Problem.ofFailure f).respond, s) := by
  simp only [all, andThen, identify, unknown]

theorem all_anonymous (found : operationOf table inbound = some d)
    (known : callerOf services.introspect inbound.request.headers site = (.ok caller, s))
    (refused : ¬ mayCall d (some caller) = true) :
    all table services took inbound site =
      (.error (Problem.unauthenticated
        (d.operation ++ " requires an authenticated caller")).respond, s) := by
  have found' : operationOf table (inbound.withCaller caller) = some d := found
  have refused' : ¬ mayCall d (inbound.withCaller caller).extensions.caller = true := refused
  simp only [all, andThen, identify, known, allow, found', if_neg refused']

theorem all_known (found : operationOf table inbound = some d)
    (known : callerOf services.introspect inbound.request.headers site = (.ok caller, s))
    (may : mayCall d (some caller) = true) :
    all table services took inbound site =
      resolve table services took (inbound.withCaller caller) s := by
  have found' : operationOf table (inbound.withCaller caller) = some d := found
  have may' : mayCall d (inbound.withCaller caller).extensions.caller = true := may
  simp only [all, andThen, identify, known, allow, found', if_pos may']

theorem settled_unique {result : Except Failure Outcome} {went went' : Except Http.Response Inbound}
    (first : Settled inbound result went) (second : Settled inbound result went') :
    went = went' := by
  cases first <;> cases second <;> rfl

end Step

inductive Checkpoint where
  | authentication
  | access
  | tenancy
  | handler
deriving Repr, DecidableEq

/-- How a request ends: where, with which response, and what is left behind and has happened then. -/
structure Ending (σ : Type) where
  checkpoint : Checkpoint
  response : Http.Response
  site : Site σ
  events : List Event

/-- The caller is known and may call the operation, and the tenancy was decided: the request goes on,
or it is answered. -/
structure Resolved (services : Services σ) (e : Entry (Handler σ)) (inbound : Inbound)
    (site : Site σ) (caller : Caller) (s : Site σ) (made : List Event)
    (went : Except Http.Response Inbound) : Prop where
  known : callerOf services.introspect inbound.request.headers site = (.ok caller, s)
  may : e.contract.access = .token → caller ≠ .anonymous
  decided : ∃ result,
    Resolver.Decides services.isValid
      (Resolver.answersOf services.toCollaborators caller false s.services) caller
      (detectionOf e.descriptor inbound) made result ∧
    Step.Settled (inbound.withCaller caller) result went

/-- One rule for each checkpoint. A request comes to one by passing those before it. -/
inductive Ends (table : RouteTable) (services : Services σ) (took : Durations)
    (e : Entry (Handler σ)) (inbound : Inbound) (site : Site σ) : Ending σ → Prop where
  | authentication {f : Failure} {s : Site σ}
      (unknown : callerOf services.introspect inbound.request.headers site = (.error f, s)) :
      Ends table services took e inbound site
        ⟨.authentication, (Problem.ofFailure f).respond, s,
          asked services inbound.request.headers site⟩
  | access {s : Site σ}
      (known : callerOf services.introspect inbound.request.headers site = (.ok .anonymous, s))
      (guarded : e.contract.access = .token) :
      Ends table services took e inbound site
        ⟨.access,
          (Problem.unauthenticated
            (e.contract.operation ++ " requires an authenticated caller")).respond,
          s, asked services inbound.request.headers site⟩
  | tenancy {caller : Caller} {s after : Site σ} {made : List Event} {response : Http.Response}
      (resolved : Resolved services e inbound site caller s made (.error response))
      (left : (Step.resolve table services took (inbound.withCaller caller) s).2 = after) :
      Ends table services took e inbound site
        ⟨.tenancy, response, after, asked services inbound.request.headers site ++ made⟩
  | handler {caller : Caller} {s after : Site σ} {made : List Event} {inbound' : Inbound}
      (resolved : Resolved services e inbound site caller s made (.ok inbound'))
      (left : (Step.resolve table services took (inbound.withCaller caller) s).2 = after) :
      Ends table services took e inbound site
        ⟨.handler, (e.handler inbound' after).1, (e.handler inbound' after).2,
          asked services inbound.request.headers site ++ made ++ [.handling inbound']⟩

section Rules

variable {table : RouteTable} {services : Services σ} {took : Durations} {e : Entry (Handler σ)}
  {inbound : Inbound} {site : Site σ}

theorem resolved_unique {caller caller' : Caller} {s s' : Site σ} {made made' : List Event}
    {went went' : Except Http.Response Inbound}
    (first : Resolved services e inbound site caller s made went)
    (second : Resolved services e inbound site caller' s' made' went') :
    caller = caller' ∧ s = s' ∧ made = made' ∧ went = went' := by
  obtain ⟨known, _, result, rule, settled⟩ := first
  obtain ⟨known', _, result', rule', settled'⟩ := second
  rw [known, Prod.mk.injEq, Except.ok.injEq] at known'
  obtain ⟨rfl, rfl⟩ := known'
  obtain ⟨rfl, rfl⟩ := Resolver.decides_unique rule rule'
  exact ⟨rfl, rfl, rfl, Step.settled_unique settled settled'⟩

theorem Resolved.authenticated {caller : Caller} {s : Site σ} {made : List Event}
    {went : Except Http.Response Inbound}
    (resolved : Resolved services e inbound site caller s made went)
    (guarded : e.contract.access = .token) : ∃ c, caller = .authenticated c := by
  cases caller with
  | anonymous => exact absurd rfl (resolved.may guarded)
  | authenticated c => exact ⟨c, rfl⟩

theorem Resolved.went_of_failed {caller : Caller} {s : Site σ} {made : List Event}
    {went : Except Http.Response Inbound}
    (resolved : Resolved services e inbound site caller s made went) {x : Event} {f : Failure}
    (among : x ∈ asked services inbound.request.headers site ++ made)
    (failed : x.failure? = some f) : went = .error (Problem.ofFailure f).respond := by
  obtain ⟨known, _, result, rule, settled⟩ := resolved
  rcases List.mem_append.mp among with before | decided
  · rw [not_failed_of_known known before] at failed
    exact absurd failed (by simp)
  · cases result_of_failed rule decided failed
    cases settled
    rfl

theorem Resolved.quiet {caller : Caller} {s : Site σ} {made : List Event}
    {went : Except Http.Response Inbound}
    (resolved : Resolved services e inbound site caller s made went) :
    (asked services inbound.request.headers site ++ made).filter Event.isHandling = [] := by
  obtain ⟨_, _, result, rule, _⟩ := resolved
  rw [List.filter_append, quiet_asked, Resolver.no_handling_of_decides rule]
  rfl

theorem ends_unique {first second : Ending σ} (ends : Ends table services took e inbound site first)
    (ends' : Ends table services took e inbound site second) : first = second := by
  have clash {f : Failure} {caller : Caller} {s s' : Site σ}
      (unknown : callerOf services.introspect inbound.request.headers site = (.error f, s))
      (known : callerOf services.introspect inbound.request.headers site = (.ok caller, s')) :
      first = second := by
    rw [unknown] at known
    exact absurd (congrArg Prod.fst known) (by simp)
  have barred {caller : Caller} {s s' : Site σ} {made : List Event}
      {went : Except Http.Response Inbound}
      (known : callerOf services.introspect inbound.request.headers site = (.ok .anonymous, s))
      (guarded : e.contract.access = .token)
      (resolved : Resolved services e inbound site caller s' made went) : first = second := by
    have known' := resolved.known
    rw [known, Prod.mk.injEq, Except.ok.injEq] at known'
    exact absurd known'.1.symm (resolved.may guarded)
  cases ends with
  | authentication unknown =>
    cases ends' with
    | authentication unknown' =>
      rw [unknown, Prod.mk.injEq, Except.error.injEq] at unknown'
      rw [unknown'.1, unknown'.2]
    | access known => exact clash unknown known
    | tenancy resolved => exact clash unknown resolved.known
    | handler resolved => exact clash unknown resolved.known
  | access known guarded =>
    cases ends' with
    | authentication unknown => exact clash unknown known
    | access known' =>
      rw [known, Prod.mk.injEq] at known'
      rw [known'.2]
    | tenancy resolved => exact barred known guarded resolved
    | handler resolved => exact barred known guarded resolved
  | tenancy resolved left =>
    cases ends' with
    | authentication unknown => exact clash unknown resolved.known
    | access known guarded => exact barred known guarded resolved
    | tenancy resolved' left' =>
      obtain ⟨rfl, rfl, rfl, went⟩ := resolved_unique resolved resolved'
      rw [← left, ← left', Except.error.inj went]
    | handler resolved' left' =>
      obtain ⟨_, _, _, went⟩ := resolved_unique resolved resolved'
      exact absurd went (by simp)
  | handler resolved left =>
    cases ends' with
    | authentication unknown => exact clash unknown resolved.known
    | access known guarded => exact barred known guarded resolved
    | tenancy resolved' left' =>
      obtain ⟨_, _, _, went⟩ := resolved_unique resolved resolved'
      exact absurd went (by simp)
    | handler resolved' left' =>
      obtain ⟨rfl, rfl, rfl, went⟩ := resolved_unique resolved resolved'
      rw [← left, ← left', Except.ok.inj went]

theorem resolved_of_known {caller : Caller} {s : Site σ} {n : Site (Noted σ)} (took : Durations)
    (found : operationOf table inbound = some e.descriptor)
    (fresh : inbound.extensions = { Extensions.none with cancelled := some false })
    (known : callerOf services.introspect inbound.request.headers site = (.ok caller, s))
    (may : e.contract.access = .token → caller ≠ .anonymous) (noted : n.forget = s) :
    ∃ made went after n',
      Resolved services e inbound site caller s made went ∧
      Step.resolve table services took (inbound.withCaller caller) s = (went, after) ∧
      Step.resolve table services.noting took (inbound.withCaller caller) n = (went, n') ∧
      n'.services.events = n.services.events ++ made := by
  have found' : operationOf table (inbound.withCaller caller) = some e.descriptor := found
  have unset : (inbound.withCaller caller).extensions.tenancy = none := by
    simp only [Inbound.withCaller, fresh]
    rfl
  have going : (inbound.withCaller caller).extensions.isCancelled = false := by
    simp only [Inbound.withCaller, fresh]
    rfl
  obtain ⟨made, events, rule⟩ := resolve_noted found' services took n
  have related : Site.Alike Forgets n s := by
    subst noted
    exact ⟨rfl, rfl, rfl, rfl⟩
  have state : n.services.state = s.services := related.services
  have settled : Step.Settled (inbound.withCaller caller)
      (decideTenancy services.noting took e.descriptor (inbound.withCaller caller) n).1
      (Step.resolve table services.noting took (inbound.withCaller caller) n).1 :=
    Step.resolve_settled found' unset
  obtain ⟨same, _⟩ := Step.alike_resolve (noting_services_alike services) table took
    (inbound.withCaller caller) n s related
  rw [going, state] at rule
  refine ⟨made, _, _, _, ⟨known, may, _, rule, settled⟩, Prod.ext same.symm rfl, rfl, events⟩

theorem ends_total (found : operationOf table inbound = some e.descriptor)
    (fresh : inbound.extensions = { Extensions.none with cancelled := some false })
    (services : Services σ) (took : Durations) (site : Site σ) :
    ∃ ending, Ends table services took e inbound site ending ∧
      (Step.all table services took).layer e.handler inbound site =
        (ending.response, ending.site) ∧
      ((Step.all table services.noting took).layer (notingHandler e.handler) inbound
        site.noting).2.services.events = ending.events ∧
      (ending.checkpoint ≠ .handler →
        Step.all table services took inbound site = (.error ending.response, ending.site) ∧
        ∃ n, Step.all table services.noting took inbound site.noting =
          (.error ending.response, n) ∧ n.services.events = ending.events) := by
  obtain ⟨n, noted, forgot, events⟩ := callerOf_noting services inbound.request.headers site
  rcases identified : callerOf services.introspect inbound.request.headers site with
    ⟨f | caller, s⟩
  · rw [identified] at noted
    have stops := Step.all_unknown table took identified
    have stops' := Step.all_unknown table took noted
    refine ⟨_, .authentication identified, ?_, ?_, fun _ => ⟨stops, n, stops', events⟩⟩
    · simp only [Step.layer, stops]
    · simp only [Step.layer, stops', events]
  · rw [identified] at noted forgot
    by_cases may : mayCall e.descriptor (some caller) = true
    · have allowed : e.contract.access = .token → caller ≠ .anonymous := by
        intro guarded anonymous
        exact (not_mayCall_iff e.descriptor caller).mpr ⟨guarded, anonymous⟩ may
      obtain ⟨made, went, after, n', resolved, goes, goes', more⟩ :=
        resolved_of_known took found fresh identified allowed forgot
      have steps := (Step.all_known took found identified may).trans goes
      have steps' := (Step.all_known took found noted may).trans goes'
      rw [events] at more
      have left : (Step.resolve table services took (inbound.withCaller caller) s).2 = after := by
        rw [goes]
      cases went with
      | error response =>
        refine ⟨_, .tenancy resolved left, ?_, ?_, fun _ => ⟨steps, n', steps', more⟩⟩
        · simp only [Step.layer, steps]
        · simp only [Step.layer, steps', more]
      | ok inbound' =>
        refine ⟨_, .handler resolved left, ?_, ?_, fun short => absurd rfl short⟩
        · simp only [Step.layer, steps]
        · simp only [Step.layer, steps', notingHandler, Site.withServices, more]
    · obtain ⟨guarded, rfl⟩ := (not_mayCall_iff e.descriptor caller).mp may
      have stops := Step.all_anonymous took found identified may
      have stops' := Step.all_anonymous took found noted may
      refine ⟨_, .access identified guarded, ?_, ?_, fun _ => ⟨stops, n, stops', events⟩⟩
      · simp only [Step.layer, stops]
        rfl
      · simp only [Step.layer, stops', events]

structure Ending.Orderly (services : Services σ) (e : Entry (Handler σ)) (request : Http.Request)
    (site : Site σ) (ending : Ending σ) : Prop where
  turnedAway : ending.checkpoint = .authentication ∨ ending.checkpoint = .access →
    ending.site.metrics = site.metrics ∧ ending.events.filter Event.isLookup = [] ∧
      (ending.response.status = .unauthorized ∨
        ∃ token f, Event.introspection token (.error f) ∈ ending.events)
  undecided : ending.checkpoint = .tenancy →
    ending.response.status = .badRequest ∨ ending.response.status = .forbidden ∨
      ∃ x ∈ ending.events, ∃ f, x.isLookup = true ∧ x.failure? = some f
  failed : ∀ x ∈ ending.events, ∀ f, x.failure? = some f →
    ending.checkpoint ≠ .handler ∧ ending.response = (Problem.ofFailure f).respond
  guarded : e.contract.access = .token → ending.events.filter Event.isLookup ≠ [] →
    ∃ c s, callerOf services.introspect request.headers site = (.ok (.authenticated c), s)
  unhandled : ending.checkpoint ≠ .handler → ending.events.filter Event.isHandling = []

theorem orderly_authentication {f : Failure} {s : Site σ}
    (unknown : callerOf services.introspect inbound.request.headers site = (.error f, s)) :
    Ending.Orderly services e inbound.request site
      ⟨.authentication, (Problem.ofFailure f).respond, s,
        asked services inbound.request.headers site⟩ := by
  have metrics := callerOf_metrics services.introspect inbound.request.headers site
  rw [unknown] at metrics
  have unasked := lookups_of_asked services inbound.request.headers site
  refine ⟨fun _ => ⟨metrics, unasked, ?_⟩, fun here => absurd here (by simp), ?_, ?_,
    fun _ => quiet_asked services inbound.request.headers site⟩
  · rcases unknown_callerOf unknown with ⟨message, rfl⟩ | ⟨token, only⟩
    · exact .inl rfl
    · exact .inr ⟨token, f, by rw [only]; exact List.mem_singleton_self _⟩
  · intro x among g failed
    have answer := callerOf_of_failed among failed
    rw [unknown] at answer
    rw [← Except.error.inj answer]
    exact ⟨by simp, rfl⟩
  · intro _ looked
    exact absurd unasked looked

theorem orderly_access {caller : Caller} {s : Site σ}
    (known : callerOf services.introspect inbound.request.headers site = (.ok caller, s))
    (detail : String) :
    Ending.Orderly services e inbound.request site
      ⟨.access, (Problem.unauthenticated detail).respond, s,
        asked services inbound.request.headers site⟩ := by
  have metrics := callerOf_metrics services.introspect inbound.request.headers site
  rw [known] at metrics
  have unasked := lookups_of_asked services inbound.request.headers site
  refine ⟨fun _ => ⟨metrics, unasked, .inl rfl⟩, fun here => absurd here (by simp), ?_, ?_,
    fun _ => quiet_asked services inbound.request.headers site⟩
  · intro x among g failed
    rw [not_failed_of_known known among] at failed
    exact absurd failed (by simp)
  · intro _ looked
    exact absurd unasked looked

theorem orderly_tenancy {caller : Caller} {s : Site σ} {made : List Event}
    {response : Http.Response}
    (resolved : Resolved services e inbound site caller s made (.error response))
    (after : Site σ) :
    Ending.Orderly services e inbound.request site
      ⟨.tenancy, response, after, asked services inbound.request.headers site ++ made⟩ := by
  refine ⟨?_, ?_, ?_, ?_, ?_⟩
  · rintro (here | here) <;> exact absurd here (by simp)
  · intro _
    obtain ⟨result, rule, settled⟩ := resolved.decided
    cases settled with
    | reject r =>
      rcases rejection_status r with status | status
      · exact .inl status
      · exact .inr (.inl status)
    | failed f =>
      obtain ⟨x, among, lookup, failed⟩ := failed_of_result rule rfl
      exact .inr (.inr ⟨x, List.mem_append_right _ among, f, lookup, failed⟩)
  · intro x among f failed
    exact ⟨by simp, Except.error.inj (resolved.went_of_failed among failed)⟩
  · intro guarded _
    obtain ⟨c, rfl⟩ := resolved.authenticated guarded
    exact ⟨c, s, resolved.known⟩
  · intro _
    exact resolved.quiet

theorem orderly_handler {caller : Caller} {s : Site σ} {made : List Event} {inbound' : Inbound}
    (resolved : Resolved services e inbound site caller s made (.ok inbound'))
    (response : Http.Response) (after : Site σ) :
    Ending.Orderly services e inbound.request site
      ⟨.handler, response, after,
        asked services inbound.request.headers site ++ made ++ [.handling inbound']⟩ := by
  refine ⟨?_, fun here => absurd here (by simp), ?_, ?_, fun short => absurd rfl short⟩
  · rintro (here | here) <;> exact absurd here (by simp)
  · intro x among f failed
    rcases List.mem_append.mp among with before | handled
    · exact absurd (resolved.went_of_failed before failed) (by simp)
    · rw [List.mem_singleton.mp handled] at failed
      exact absurd failed (by simp [Event.failure?])
  · intro guarded _
    obtain ⟨c, rfl⟩ := resolved.authenticated guarded
    exact ⟨c, s, resolved.known⟩

theorem orderly_of_ends {ending : Ending σ} (ends : Ends table services took e inbound site ending) :
    ending.Orderly services e inbound.request site := by
  cases ends with
  | authentication unknown => exact orderly_authentication unknown
  | access known guarded => exact orderly_access known _
  | tenancy resolved left => exact orderly_tenancy resolved _
  | handler resolved left => exact orderly_handler resolved _ _

end Rules

theorem served_ends {testing : Bool} {entries : List (Entry (Handler σ))}
    {registry : Registry (Handler σ)} (built : Built testing entries registry)
    (services : Services σ) (took : Durations) {request : Http.Request}
    {mount : Mount (Handler σ)} {inbound : Inbound}
    (requested : Host.operationFor? registry request = some (mount, inbound)) (site : Site σ) :
    inbound.request = request ∧
    ∃ e ∈ entries, e.mount = mount ∧ inbound.template = e.contract.path ∧ ∃ ending,
      Ends registry.table services took e inbound site ending ∧
      Host.serve registry services took request site =
        (Host.finished request ending.response, ending.site) ∧
      servedEvents registry services took request site = ending.events ∧
      (ending.checkpoint ≠ .handler →
        Step.all registry.table services took inbound site = (.error ending.response, ending.site) ∧
        ∃ n, Step.all registry.table services.noting took inbound site.noting =
          (.error ending.response, n) ∧ n.services.events = ending.events) := by
  obtain ⟨e, member, rfl, found⟩ := Host.operationOf_requested built requested
  obtain ⟨m, _, routed, filed⟩ := Host.operationFor?_inbound requested
  have fresh : inbound.extensions = { Extensions.none with cancelled := some false } := by
    rw [routed]
    rfl
  have same : inbound.request = request := by
    rw [routed]
    rfl
  have template : inbound.template = e.contract.path := by
    rw [routed]
    exact (Host.mem_mountFor? filed).2.1.symm
  obtain ⟨ending, ends, answered, noted, stops⟩ := ends_total found fresh services took site
  have answered : (Step.all registry.table services took).layer e.mount.handler inbound site =
      (ending.response, ending.site) := answered
  refine ⟨same, e, member, rfl, template, ending, ends, ?_, ?_, stops⟩
  · rw [Host.serve_operation requested services took site, answered]
  · exact (servedEvents_operation requested services took site).trans noted

theorem unavailable_of_introspect {ν : Type} (network : Net.Network ν) (isValid : String → Bool)
    (endUsers organizations : Service.Backing) (identity : Service.Identity) (token : String)
    (w : Service.World ν) {f : Failure}
    (failed : ((Service.servicesOf network isValid endUsers organizations identity).introspect token
      w).1 = .error f) : (Problem.ofFailure f).respond.status = .serviceUnavailable := by
  have asked : (Service.freshVerdict network identity token w.network).1 = .error f := by
    simp only [Service.servicesOf, Service.Backing.onVerdicts, Call.onPart, Service.introspect_eq,
      Service.remembered] at failed
    cases held : w.verdicts.lookup token with
    | some verdict =>
      simp only [held] at failed
      exact absurd failed (by simp)
    | none =>
      simp only [held] at failed
      rcases called : Service.freshVerdict network identity token w.network with ⟨g | verdict, n⟩
      · simp only [called] at failed
        exact failed
      · simp only [called] at failed
        exact absurd failed (by simp)
  unfold Service.freshVerdict at asked
  split at asked
  · exact absurd asked (by simp [Call.done])
  · obtain ⟨message, rfl⟩ := Service.unavailable_of_ask asked
    rfl

/-- A request for an operation ends at the first checkpoint that holds it up, whatever is wrong with
it beyond: the answer, the calls and what is left behind are those of the checkpoints up to there.
Where it does not get as far as the handler, its body makes no difference. -/
theorem first_fault_decides {testing : Bool} {entries : List (Entry (Handler σ))}
    {registry : Registry (Handler σ)}
    (registered : Registry.empty.registerAll testing entries = .ok registry)
    (services : Services σ) (took : Durations) {request : Http.Request}
    {mount : Mount (Handler σ)} {inbound : Inbound}
    (requested : Host.operationFor? registry request = some (mount, inbound)) (site : Site σ) :
    (∃ e ∈ entries, e.mount = mount ∧ ∃ ending,
      (∀ other, Ends registry.table services took e inbound site other ↔ other = ending) ∧
      Host.serve registry services took request site =
        (Host.finished request ending.response, ending.site) ∧
      servedEvents registry services took request site = ending.events ∧
      ending.Orderly services e request site ∧
      (ending.checkpoint ≠ .handler → ∀ body,
        Host.serve registry services took { request with body } site =
          Host.serve registry services took request site ∧
        servedEvents registry services took { request with body } site =
          servedEvents registry services took request site)) ∧
    ∀ {ν : Type} (network : Net.Network ν) (isValid : String → Bool)
      (endUsers organizations : Service.Backing) (identity : Service.Identity) (token : String)
      (w : Service.World ν) (f : Failure),
      ((Service.servicesOf network isValid endUsers organizations identity).introspect token
        w).1 = .error f → (Problem.ofFailure f).respond.status = .serviceUnavailable := by
  have built : Built testing entries registry := Built.empty.registerAll registered
  refine ⟨?_, fun network isValid endUsers organizations identity token w f =>
    unavailable_of_introspect network isValid endUsers organizations identity token w⟩
  obtain ⟨same, e, member, rfl, _, ending, ends, served, events, stops⟩ :=
    served_ends built services took requested site
  refine ⟨e, member, rfl, ending, ?_, served, events, ?_, ?_⟩
  · intro other
    constructor
    · intro ends'
      exact ends_unique ends' ends
    · rintro rfl
      exact ends
  · rw [← same]
    exact orderly_of_ends ends
  · intro short body
    obtain ⟨stopped, n, stopped', seen⟩ := stops short
    have alike : AskedAlike { request with body } request := ⟨rfl, rfl, rfl⟩
    have requested' := operationFor?_of_alike built alike
    rw [requested, Option.map_some] at requested'
    have follows := (Step.follows_all registry.table services took).alike inbound
      { request with body } site (same ▸ alike)
    have follows' := (Step.follows_all registry.table services.noting took).alike inbound
      { request with body } site.noting (same ▸ alike)
    rw [stopped] at follows
    rw [stopped'] at follows'
    constructor
    · rw [Host.serve_operation requested' services took site, served]
      simp only [Step.layer, follows, Except.map]
      rfl
    · rw [servedEvents_operation requested' services took site, events]
      simp only [Step.layer, follows', Except.map, seen]

/-- A request with much wrong with it: nobody's, with a path that is no text and with a bad body. -/
def faultyRequest : Http.Request :=
  ⟨.get, ⟨Utf8.encode "/organizations/%FF/settings", none⟩, [.ofText "tenant" "org1"], [0xFF]⟩

theorem faulty_request_path :
    (Host.operationFor? hostRegistry faultyRequest).map (·.1.path) =
      some Contracts.organizationSettings.path := by decide +kernel

/-- It ends where its caller is missing. -/
theorem faulty_request_ends_at_access :
    Registry.empty.registerAll false operations = .ok hostRegistry ∧
      ∃ mount inbound, Host.operationFor? hostRegistry faultyRequest = some (mount, inbound) ∧
        ∃ e ∈ operations, ∃ ending,
          Ends hostRegistry.table memberServices .instant e inbound freshSite ending ∧
          ending.checkpoint = .access ∧
          (Host.serve hostRegistry memberServices .instant faultyRequest freshSite).1.status =
            .unauthorized ∧
          servedEvents hostRegistry memberServices .instant faultyRequest freshSite = [] := by
  have registered : Registry.empty.registerAll false operations = .ok hostRegistry := rfl
  obtain ⟨⟨mount, inbound⟩, requested, path⟩ := Option.map_eq_some_iff.mp faulty_request_path
  obtain ⟨⟨e, member, filed, ending, only, served, events, _, _⟩, _⟩ :=
    first_fault_decides registered memberServices .instant requested freshSite
  have guarded : e.contract.access = .token := by
    have path' : e.contract.path = Contracts.organizationSettings.path :=
      (congrArg Mount.path filed).trans path
    rcases List.mem_cons.mp member with rfl | member
    · exact absurd path' (by decide)
    rcases List.mem_cons.mp member with rfl | member
    · rfl
    rcases List.mem_cons.mp member with rfl | member
    · exact absurd path' (by decide)
    rcases List.mem_singleton.mp member with rfl
    exact absurd path' (by decide)
  obtain ⟨m, _, routed, _⟩ := Host.operationFor?_inbound requested
  have headers : inbound.request.headers = faultyRequest.headers := by
    rw [routed]
    rfl
  have absent : Http.firstText? inbound.request.headers "authorization" = none := by
    rw [headers]
    decide +kernel
  have ends : Ends hostRegistry.table memberServices .instant e inbound freshSite _ :=
    .access (callerOf_absent _ _ absent) guarded
  obtain rfl := (only _).mp ends
  refine ⟨registered, mount, inbound, requested, e, member, _, ends, rfl, ?_, ?_⟩
  · rw [served, Host.finished_status]
    rfl
  · rw [events, asked, absent]
    rfl

end TenantGate.Gate
