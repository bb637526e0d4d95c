import TenantGate.Proofs.Asking
import TenantGate.Proofs.Checkpoints
import TenantGate.Proofs.Masking

/-!
What is sent to other services while a request is served, beside what happens. Every event sends one
request at most, for what is asked, and only the last event of all can be that a service fails.
-/
namespace TenantGate

open Gate Api Net Auth Service

variable {ν σ α : Type}

namespace Gate

def Event.query? : Event → Option Query
  | .introspection token _ => some (.verdict token)
  | .memberships caller userId _ => some (.memberships caller userId)
  | .settings caller tenantId _ => some (.settings caller tenantId)
  | .handling _ => none

/-- Nothing but the last event is that a service fails. -/
def FailsLast (events : List Event) : Prop := ∀ x ∈ events.dropLast, x.failure? = none

theorem failsLast_asked (services : Services σ) (headers : List Http.Header) (site : Site σ) :
    FailsLast (asked services headers site) := by
  unfold FailsLast asked
  split <;> simp

theorem failsLast_of_decides {isValid : String → Bool} {answers : Resolver.Answers}
    {caller : Caller} {detection : Detection} {made : List Event}
    {result : Except Failure Outcome}
    (rule : Resolver.Decides isValid answers caller detection made result) : FailsLast made := by
  unfold FailsLast
  cases rule with
  | member | soleDefault =>
    intro x among
    rw [List.mem_singleton.mp among]
    rfl
  | _ => simp

theorem failsLast_append {before after : List Event} (sound : ∀ x ∈ before, x.failure? = none)
    (last : FailsLast after) : FailsLast (before ++ after) := by
  intro x among
  rw [List.dropLast_append] at among
  split at among
  · exact sound x (List.dropLast_subset _ among)
  · rcases List.mem_append.mp among with first | second
    · exact sound x first
    · exact last x second

theorem failsLast_of_ends {table : RouteTable} {services : Services σ} {took : Durations}
    {e : Entry (Handler σ)} {inbound : Inbound} {site : Site σ} {ending : Ending σ}
    (ends : Ends table services took e inbound site ending) : FailsLast ending.events := by
  cases ends with
  | authentication unknown => exact failsLast_asked _ _ _
  | access known guarded => exact failsLast_asked _ _ _
  | tenancy resolved left =>
    obtain ⟨known, _, result, rule, _⟩ := resolved
    exact failsLast_append (fun x among => not_failed_of_known known among)
      (failsLast_of_decides rule)
  | handler resolved left =>
    refine failsLast_append ?_ (by simp [FailsLast])
    intro x among
    cases failed : x.failure? with
    | none => rfl
    | some f => exact absurd (resolved.went_of_failed among failed) (by simp)

/-- What is asked of a service in vain is the last thing that happens, and the answer is its
problem. -/
theorem failure_is_last {testing : Bool} {entries : List (Entry (Handler σ))}
    {registry : Registry (Handler σ)} (built : Built testing entries registry)
    (services : Services σ) (took : Durations) (request : Http.Request) (site : Site σ)
    {before after : List Event} {x : Event} {f : Failure}
    (happened : servedEvents registry services took request site = before ++ x :: after)
    (failed : x.failure? = some f) :
    after = [] ∧ (Host.serve registry services took request site).1 =
      Host.finished request (Problem.ofFailure f).respond := by
  cases requested : Host.operationFor? registry request with
  | none =>
    rw [servedEvents_elsewhere requested] at happened
    exact absurd happened (by simp)
  | some found =>
    obtain ⟨mount, inbound⟩ := found
    obtain ⟨same, e, _, _, _, ending, ends, served, events, _⟩ :=
      served_ends built services took requested site
    rw [events] at happened
    constructor
    · have last := failsLast_of_ends ends
      rw [happened] at last
      cases after with
      | nil => rfl
      | cons next more =>
        have early : x ∈ (before ++ x :: next :: more).dropLast := by
          rw [List.dropLast_append_of_ne_nil (by simp)]
          exact List.mem_append_right _ List.mem_cons_self
        rw [last x early] at failed
        exact absurd failed (by simp)
    · have among : x ∈ ending.events := by
        rw [happened]
        exact List.mem_append_right _ List.mem_cons_self
      rw [served, ((orderly_of_ends ends).failed x among f failed).2]

theorem operations_leave_site : ∀ e ∈ (operations : List (Entry (Handler σ))),
    ∀ inbound site, (e.handler inbound site).2 = site := by
  intro e member inbound site
  rcases List.mem_cons.mp member with rfl | member
  · simp only [Handlers.recordCrash]
    split <;> rfl
  rcases List.mem_cons.mp member with rfl | member
  · simp only [Handlers.organizationSettings]
    split
    · rfl
    · split <;> rfl
  rcases List.mem_cons.mp member with rfl | member
  · rfl
  rcases List.mem_singleton.mp member with rfl
  simp only [Handlers.tenancyReport]
  split
  · rfl
  · split <;> rfl

end Gate

namespace Service

/-- What is sent with an event: nothing, or one request for what is asked. Where that is not
answered, the event is that the service fails. -/
inductive Made (p : Parties) (event : Event) : List Exchange → Prop where
  | nothing : Made p event []
  | request {q : Query} {draft : Draft} {x : Exchange} (asks : event.query? = some q)
      (drafted : p.draft? q = some draft) (built : draft.build = .ok x.request)
      (fails : q.Unanswered x.delivery →
        ∃ message, event.failure? = some (.serviceUnavailable message)) : Made p event [x]

/-- What is sent with all the events, in their order. -/
def Transcribed (p : Parties) (events : List Event) (exchanges : List Exchange) : Prop :=
  ∃ made, List.Forall₂ (Made p) events made ∧ exchanges = made.flatten

variable {p : Parties} {network : Network ν}

theorem transcribed_nil : Transcribed p [] [] := ⟨[], .nil, rfl⟩

theorem transcribed_snoc {events : List Event} {exchanges made : List Exchange} {event : Event}
    (transcribed : Transcribed p events exchanges) (next : Made p event made) :
    Transcribed p (events ++ [event]) (exchanges ++ made) := by
  obtain ⟨parts, each, rfl⟩ := transcribed
  refine ⟨parts ++ [made], List.rel_append each (.cons next .nil), ?_⟩
  simp only [List.flatten_append, List.flatten_cons, List.flatten_nil, List.append_nil]

theorem made_of_transcribed {events : List Event} {exchanges : List Exchange}
    (transcribed : Transcribed p events exchanges) {before after : List Exchange} {x : Exchange}
    (sent : exchanges = before ++ x :: after) :
    ∃ asked event more, events = asked ++ event :: more ∧ Made p event [x] ∧
      Transcribed p more after := by
  obtain ⟨parts, each, rfl⟩ := transcribed
  induction each generalizing before with
  | nil => exact absurd sent (by simp)
  | @cons event made events parts first rest ih =>
    cases first with
    | nothing =>
      obtain ⟨asked, found, more, split, here, behind⟩ := ih sent
      exact ⟨event :: asked, found, more, by rw [split, List.cons_append], here, behind⟩
    | @request q draft y asks drafted built fails =>
      have sent : y :: parts.flatten = before ++ x :: after := sent
      cases before with
      | nil =>
        obtain ⟨rfl, rfl⟩ := List.cons.inj sent
        exact ⟨[], event, events, rfl, .request asks drafted built fails, parts, rest, rfl⟩
      | cons z before =>
        obtain ⟨_, later⟩ := List.cons.inj sent
        obtain ⟨asked, found, more, split, here, behind⟩ := ih later
        exact ⟨event :: asked, found, more, by rw [split, List.cons_append], here, behind⟩

theorem made_of_send {q : Query} {draft : Draft} (drafted : p.draft? q = some draft)
    {received : Except SendFault (Http.Status × List UInt8) → Except Failure α}
    (fails : ∀ delivery request, q.Unanswered delivery →
      ∃ message, received (delivery.sent request) = .error (.serviceUnavailable message))
    {event : Except Failure α → Event} (asks : ∀ answer, (event answer).query? = some q)
    (shows : ∀ f, (event (.error f)).failure? = some f) (n : ν × List Exchange) :
    ∃ made, (network.noting.send draft n).2.2 = n.2 ++ made ∧
      Made p (event (received (network.noting.send draft n).1)) made := by
  obtain ⟨n, exchanges⟩ := n
  rw [send_noting]
  refine ⟨exchangesFor network draft n, rfl, ?_⟩
  cases built : draft.build with
  | error f =>
    simp only [exchangesFor, built]
    exact .nothing
  | ok request =>
    simp only [exchangesFor, built, send_built built]
    refine .request (asks _) drafted built ?_
    intro unanswered
    obtain ⟨message, answer⟩ := fails _ request unanswered
    exact ⟨message, by rw [answer, shows]⟩

theorem made_of_getJson {c : Client} {format : Json.Format α} {q : Query} {caller : Caller}
    {segments : List String} (drafted : p.draft? q = some (c.draft caller segments))
    (unanswered : q.Unanswered = Client.Unanswered format) {event : Except Failure α → Event}
    (asks : ∀ answer, (event answer).query? = some q)
    (shows : ∀ f, (event (.error f)).failure? = some f) (cancelled : Bool)
    (n : ν × List Exchange) :
    ∃ made, (c.getJson network.noting format caller segments cancelled n).2.2 = n.2 ++ made ∧
      Made p (event (c.getJson network.noting format caller segments cancelled n).1) made := by
  cases cancelled with
  | true => exact ⟨[], (List.append_nil _).symm, .nothing⟩
  | false =>
    have fails (delivery : Delivery) (request : Outgoing) (failed : q.Unanswered delivery) :
        ∃ message, c.received format segments (delivery.sent request) =
          .error (.serviceUnavailable message) := by
      rw [unanswered] at failed
      exact Client.received_unanswered c failed segments request
    rw [Client.getJson_going]
    exact made_of_send drafted fails asks shows n

theorem made_of_remembered {call : Call (ν × List Exchange) α} {event : Except Failure α → Event}
    {n : ν × List Exchange}
    (sends : ∃ made, (call n).2.2 = n.2 ++ made ∧ Made p (event (call n).1) made) (key : String)
    (cache : Cache α) :
    ∃ made, (remembered key call (cache, n)).2.2.2 = n.2 ++ made ∧
      Made p (event (remembered key call (cache, n)).1) made := by
  simp only [remembered]
  cases cache.lookup key with
  | some a => exact ⟨[], (List.append_nil _).symm, .nothing⟩
  | none =>
    simp only
    rcases called : call n with ⟨_ | _, _⟩
    all_goals
      rw [called] at sends
      exact sends

theorem made_of_verdict (token : String) (n : ν × List Exchange) :
    ∃ made, (freshVerdict network.noting p.identity token n).2.2 = n.2 ++ made ∧
      Made p (.introspection token (freshVerdict network.noting p.identity token n).1) made := by
  by_cases trusting : p.identity.isMock = true
  · rw [freshVerdict, if_pos trusting]
    exact ⟨[], (List.append_nil _).symm, .nothing⟩
  · have drafted := Parties.draft?_verdict trusting token
    rw [freshVerdict, if_neg trusting, Identity.ask_eq]
    exact made_of_send drafted (fun _ request unanswered =>
      Identity.received_unanswered unanswered request) (fun _ => rfl) (fun _ => rfl) n

variable (p network) in
def notingServices (isValid : String → Bool) : Services (Noted (World (ν × List Exchange))) :=
  (p.services network.noting isValid).noting

/-- Both are the same, and what was sent was sent with what has happened. -/
def Kept (p : Parties) (t s : Noted (World (ν × List Exchange))) : Prop :=
  t = s ∧ Transcribed p t.events t.state.network.2

theorem kept_of_made {event : Except Failure α → Event}
    {call : Call (World (ν × List Exchange)) α}
    (sends : ∀ w, ∃ made, (call w).2.network.2 = w.network.2 ++ made ∧
      Made p (event (call w).1) made) :
    Call.Alike (Kept p) (call.noting event) (call.noting event) := by
  rintro t s ⟨rfl, transcribed⟩
  obtain ⟨made, sent, next⟩ := sends t.state
  refine ⟨rfl, rfl, ?_⟩
  simp only [Call.noting, sent]
  exact transcribed_snoc transcribed next

variable (p network) in
theorem kept_services (isValid : String → Bool) :
    Services.Alike (Kept p) (notingServices p network isValid)
      (notingServices p network isValid) := by
  refine ⟨⟨?_, ?_⟩, ?_, rfl⟩
  · intro caller userId cancelled
    apply kept_of_made
    intro w
    simp only [Parties.services, servicesOf, Backing.memberships]
    cases asked : p.endUsers with
    | client c =>
      have drafted := Parties.draft?_memberships asked caller userId
      exact made_of_getJson drafted rfl (fun _ => rfl) (fun _ => rfl) cancelled w.network
    | _ => exact ⟨[], (List.append_nil _).symm, .nothing⟩
  · intro caller tenantId cancelled
    apply kept_of_made
    intro w
    simp only [Parties.services, servicesOf, Backing.settings]
    cases asked : p.organizations with
    | client c =>
      have drafted := Parties.draft?_settings asked caller tenantId
      exact made_of_remembered
        (made_of_getJson drafted rfl (fun _ => rfl) (fun _ => rfl) cancelled w.network) tenantId
        w.settings
    | _ => exact ⟨[], (List.append_nil _).symm, .nothing⟩
  · intro token
    apply kept_of_made
    intro w
    exact made_of_remembered (made_of_verdict token w.network) token w.verdicts

theorem kept_handler {handler : Handler (World (ν × List Exchange))}
    (leaves : ∀ inbound site, (handler inbound site).2 = site) :
    HandlersAlike (Kept p) (notingHandler handler) (notingHandler handler) := by
  intro inbound t s related
  obtain ⟨metrics, health, now, same, transcribed⟩ := related
  obtain rfl : t = s := by
    cases t
    cases s
    simp_all
  refine ⟨rfl, rfl, rfl, rfl, rfl, ?_⟩
  simp only [notingHandler, leaves, Site.withServices]
  rw [← List.append_nil t.forget.services.network.2]
  exact transcribed_snoc transcribed .nothing

theorem kept_registry {testing : Bool} {registry : Registry (Handler (World (ν × List Exchange)))}
    (registered : registeredOperations testing = .ok registry) :
    RegistriesAlike (Kept p) (notingRegistry registry) (notingRegistry registry) := by
  have built : Built testing operations registry := Built.empty.registerAll registered
  refine ⟨rfl, List.forall₂_same.mpr ?_⟩
  intro mount filed
  simp only [notingRegistry, built.handlers, List.map_map] at filed
  obtain ⟨e, kept, rfl⟩ := List.mem_map.mp filed
  exact ⟨rfl, rfl, kept_handler (operations_leave_site e (List.mem_filter.mp kept).1)⟩

variable (p network) in
theorem served_transcribed {testing : Bool}
    {registry : Registry (Handler (World (ν × List Exchange)))}
    (registered : registeredOperations testing = .ok registry) (isValid : String → Bool)
    (took : Durations) (request : Http.Request) {site : Site (World (ν × List Exchange))}
    (fresh : site.services.network.2 = []) :
    Transcribed p
      (servedEvents registry (p.services network.noting isValid) took request site)
      (Host.serve registry (p.services network.noting isValid) took request
        site).2.services.network.2 := by
  have start : Site.Alike (Kept p) site.noting site.noting := by
    refine ⟨rfl, rfl, rfl, rfl, ?_⟩
    simp only [Site.noting, Site.withServices, fresh]
    exact transcribed_nil
  obtain ⟨_, left⟩ := Host.alike_serve (kept_registry registered)
    (kept_services p network isValid) took request start
  have forgot := (noting_serve registry (p.services network.noting isValid) took request site).2
  rw [← forgot]
  exact left.services.2

end Service

end TenantGate
