import TenantGate.Proofs.Serving
import TenantGate.Service.World

/-!
Runs of a host: requests one after the other, with any change of the site between them. The tenancy
that a known caller is served with is always one of a membership that was reported during the same
request, so a membership that is gone is of no use to the next request, whatever is remembered.
-/
namespace TenantGate.Gate

open Api Telemetry

variable {σ : Type}

/-- A request, with what happens to the site before it: other answers of the services, for one. -/
structure Visit (σ : Type) where
  change : Site σ → Site σ
  request : Http.Request
  took : Durations

/-- What is on record about a request: the site as it was found, the answer, and what happened. -/
structure Record (σ : Type) where
  start : Site σ
  response : Http.Response
  events : List Event

def run (registry : Registry (Handler σ)) (services : Services σ) :
    List (Visit σ) → Site σ → List (Record σ)
  | [], _ => []
  | v :: more, site =>
    let start := v.change site
    let (response, after) := Host.serve registry services v.took v.request start
    ⟨start, response, servedEvents registry services v.took v.request start⟩ ::
      run registry services more after

/-- What is on record is what one of the visits brought, from the state in which it found the site. -/
theorem mem_run {registry : Registry (Handler σ)} {services : Services σ}
    {visits : List (Visit σ)} {site : Site σ} {record : Record σ}
    (member : record ∈ run registry services visits site) :
    ∃ v ∈ visits,
      record.response = (Host.serve registry services v.took v.request record.start).1 ∧
      record.events = servedEvents registry services v.took v.request record.start := by
  induction visits generalizing site with
  | nil => exact absurd member List.not_mem_nil
  | cons v more ih =>
    simp only [run, List.mem_cons] at member
    rcases member with rfl | later
    · exact ⟨v, List.mem_cons_self, rfl, rfl⟩
    · obtain ⟨v', among, shown⟩ := ih later
      exact ⟨v', List.mem_cons_of_mem _ among, shown⟩

/-- The visits bring the same request, and what happens before it keeps related sites related. -/
structure Visit.Alike {τ : Type} (R : τ → σ → Prop) (first : Visit τ) (second : Visit σ) : Prop where
  request : first.request = second.request
  took : first.took = second.took
  change : ∀ t s, Site.Alike R t s → Site.Alike R (first.change t) (second.change s)

theorem responses_alike {τ : Type} {R : τ → σ → Prop} {registry : Registry (Handler τ)}
    {registry' : Registry (Handler σ)} {services : Services τ} {services' : Services σ}
    (serves : ∀ took request t s, Site.Alike R t s →
      (Host.serve registry services took request t).1 =
          (Host.serve registry' services' took request s).1 ∧
        Site.Alike R (Host.serve registry services took request t).2
          (Host.serve registry' services' took request s).2)
    {visits : List (Visit τ)} {visits' : List (Visit σ)}
    (alike : List.Forall₂ (Visit.Alike R) visits visits') {t : Site τ} {s : Site σ}
    (related : Site.Alike R t s) :
    (run registry services visits t).map Record.response =
      (run registry' services' visits' s).map Record.response := by
  induction alike generalizing t s with
  | nil => rfl
  | @cons v v' more more' first _ ih =>
    have changed := first.change t s related
    obtain ⟨same, left⟩ := serves v.took v.request _ _ changed
    rw [first.took, first.request] at same left
    simp only [run, List.map_cons, first.took, first.request, same, ih left]

/-- One answer about the memberships of `c` is behind the tenancy. It was given in the state that
the request found, or in the one right after the caller was asked for. -/
def GrantedAfresh (table : RouteTable) (services : Services σ) (s : σ) (events : List Event)
    (inbound : Inbound) (c : String) (tenancy : Tenancy) : Prop :=
  ∃ d user, operationOf table inbound = some d ∧
    events.filter Event.isMemberships = [.memberships (.authenticated c) c (.ok user)] ∧
    Resolver.Granted user (detectionOf d inbound) tenancy ∧
    ∃ cancelled s', (s' = s ∨ ∃ token, s' = (services.introspect token s).2) ∧
      (services.memberships (.authenticated c) c cancelled s').1 = .ok user

theorem granted_of_all {table : RouteTable} {services : Services σ} {took : Durations}
    {start inbound : Inbound} {site : Site σ} {after : Site (Noted σ)} {c : String}
    {tenancy : Tenancy} (unset : start.extensions.tenancy = none)
    (went : Step.all table services.noting took start site.noting = (.ok inbound, after))
    (known : inbound.extensions.caller = some (.authenticated c))
    (held : inbound.extensions.tenancy? = some tenancy) :
    GrantedAfresh table services site.services after.services.events inbound c tenancy := by
  obtain ⟨caller, between, identified, resolved, ⟨_, rfl⟩ | ⟨d, found, settled⟩⟩ :=
    Step.all_settled unset went
  · simp [Extensions.tenancy?, Inbound.withCaller, unset] at held
  · have untouched : (start.withCaller caller).extensions.tenancy = none := unset
    have decided := (Step.tenancy?_of_settled untouched settled tenancy).mp held
    rw [decided] at settled
    cases settled
    have same : caller = .authenticated c := Option.some.inj known
    subst same
    have operation : operationOf table (start.withCaller (.authenticated c)) = some d := found
    obtain ⟨made, noted, rule⟩ := resolve_noted operation services took between
    obtain ⟨user, answered, single, granted⟩ := Resolver.granted_of_forwardWith rule decided
    obtain ⟨asked, notes, silent, _⟩ :=
      callerOf_noted services start.request.headers site.noting
    have state := callerOf_asks services.noting.introspect start.request.headers site.noting
    rw [identified] at notes state
    rw [resolved] at noted
    refine ⟨d, user, found, ?_, granted, _, between.services.state, ?_, answered⟩
    · rw [noted, notes, List.filter_append, List.filter_append, silent, single]
      rfl
    · rcases state with none | ⟨token, once⟩
      · exact .inl (congrArg (fun s => s.services.state) none)
      · exact .inr ⟨token, congrArg (fun s => s.services.state) once⟩

theorem granted_of_handling {registry : Registry (Handler σ)} {services : Services σ}
    {took : Durations} {request : Http.Request} {site : Site σ} {inbound : Inbound} {c : String}
    {tenancy : Tenancy}
    (handled : Event.handling inbound ∈ servedEvents registry services took request site)
    (known : inbound.extensions.caller = some (.authenticated c))
    (held : inbound.extensions.tenancy? = some tenancy) :
    GrantedAfresh registry.table services site.services
      (servedEvents registry services took request site) inbound c tenancy := by
  have here := List.mem_filter.mpr ⟨handled, (rfl : Event.isHandling (.handling inbound) = true)⟩
  rcases served_handling registry services took request site with
    none | ⟨mount, _, start, inbound', after, routed, went, events, only⟩
  · rw [none] at here
    exact absurd here List.not_mem_nil
  · rw [only, List.mem_singleton, Event.handling.injEq] at here
    subst here
    have unset : start.extensions.tenancy = none := by rw [routed.fresh]; rfl
    obtain ⟨d, user, found, single, granted, asked⟩ := granted_of_all unset went known held
    refine ⟨d, user, found, ?_, granted, asked⟩
    rw [events, List.filter_append, single]
    rfl

/-- States of the network in which the end-users service never reports that `c` is a member of `t`,
whatever is sent from now on. -/
structure MembershipGone {ν : Type} (network : Net.Network ν) (client : Service.Client)
    (c t : String) (states : ν → Prop) : Prop where
  stays : ∀ outgoing n, states n → states (network outgoing n).2
  unreported : ∀ cancelled n, states n → ∀ user,
    (Service.fetchMemberships network client (.authenticated c) c cancelled n).1 = .ok user →
      ¬ user.IsMember t

theorem send_kept {ν : Type} {network : Net.Network ν} {states : ν → Prop}
    (stays : ∀ outgoing n, states n → states (network outgoing n).2) (draft : Net.Draft) (n : ν)
    (start : states n) : states (network.send draft n).2 := by
  simp only [Net.Network.send]
  cases draft.build with
  | error f => exact start
  | ok outgoing =>
    have after := stays outgoing n start
    simp only
    rcases sent : network outgoing n with ⟨_ | _, _⟩
    all_goals
      rw [sent] at after
      exact after

theorem remembered_kept {ν α : Type} {states : ν → Prop} (key : String) (call : Call ν α)
    (cache : Service.Cache α) (n : ν) (start : states n) (after : states (call n).2) :
    states (Service.remembered key call (cache, n)).2.2 := by
  simp only [Service.remembered]
  cases cache.lookup key with
  | some a => exact start
  | none =>
    simp only
    rcases made : call n with ⟨_ | _, _⟩
    all_goals
      rw [made] at after
      exact after

theorem introspect_kept {ν : Type} {network : Net.Network ν} {states : ν → Prop}
    (stays : ∀ outgoing n, states n → states (network outgoing n).2) (identity : Service.Identity)
    (token : String) (w : Service.World ν) (start : states w.network) :
    states (Service.Backing.onVerdicts (identity.introspect network token) w).2.network := by
  apply remembered_kept token _ w.verdicts w.network start
  by_cases trusting : identity.isMock = true
  · rw [if_pos trusting]
    exact start
  · rw [if_neg trusting]
    have after := send_kept stays ⟨.post, Net.Url.parse (identity.base ++ "/tokens/introspect"),
      [("content-type", "application/json")], Auth.IntrospectionRequest.format.write ⟨token⟩⟩ _ start
    simp only [Service.Identity.ask]
    rcases sent : network.send _ w.network with ⟨_ | _, _⟩
    all_goals
      rw [sent] at after
      exact after

/-- All through a run, a known caller is served with a tenancy only after one call about that caller's
memberships during the same request, and the tenancy is that of a membership in the answer. So once
the service has ceased to report a membership, the next request is not served with it, whatever is
remembered about tokens and settings. -/
theorem tenancy_is_of_current_membership :
    (∀ {σ : Type} (registry : Registry (Handler σ)) (services : Services σ)
      (visits : List (Visit σ)) (site : Site σ),
      ∀ record ∈ run registry services visits site, ∀ inbound c tenancy,
        .handling inbound ∈ record.events →
        inbound.extensions.caller = some (.authenticated c) →
        inbound.extensions.tenancy? = some tenancy →
        ∃ d user, operationOf registry.table inbound = some d ∧
          record.events.filter Event.isMemberships =
            [.memberships (.authenticated c) c (.ok user)] ∧
          Resolver.Granted user (detectionOf d inbound) tenancy) ∧
    (∀ {ν : Type} (network : Net.Network ν) (isValid : String → Bool) (client : Service.Client)
      (organizations : Service.Backing) (identity : Service.Identity)
      (registry : Registry (Handler (Service.World ν))) (visits : List (Visit (Service.World ν)))
      (site : Site (Service.World ν)) (c t : String) (states : ν → Prop),
      MembershipGone network client c t states →
      ∀ record ∈ run registry
        (Service.servicesOf network isValid (.client client) organizations identity) visits site,
        states record.start.services.network → ∀ inbound tenancy,
          .handling inbound ∈ record.events →
          inbound.extensions.caller = some (.authenticated c) →
          inbound.extensions.tenancy? = some tenancy → tenancy.tenantId ≠ t) := by
  constructor
  · intro σ registry services visits site record member inbound c tenancy handled known held
    obtain ⟨v, _, _, events⟩ := mem_run member
    rw [events] at handled ⊢
    obtain ⟨d, user, found, single, granted, _⟩ := granted_of_handling handled known held
    exact ⟨d, user, found, single, granted⟩
  · intro ν network isValid client organizations identity registry visits site c t states gone
      record member start inbound tenancy handled known held
    obtain ⟨v, _, _, events⟩ := mem_run member
    rw [events] at handled
    obtain ⟨d, user, _, _, granted, cancelled, w, asked, answered⟩ :=
      granted_of_handling handled known held
    -- The answer is that of the network alone, in a state that it had after the removal.
    have still : states w.network := by
      rcases asked with rfl | ⟨token, rfl⟩
      · exact start
      · exact introspect_kept gone.stays identity token record.start.services start
    have absent := gone.unreported cancelled w.network still user answered
    rintro rfl
    exact absent (Resolver.isMember_of_granted granted)

def memberVisit : Visit Unit where
  change := id
  request := ⟨.get, ⟨Utf8.encode "/organizations/org1/settings", none⟩,
    [.ofText "authorization" "Bearer u1"], []⟩
  took := .instant

def emptiedNetwork : Net.Network Unit := fun _ n =>
  (.answered .ok (Utf8.encode "\x7b\"id\":\"u1\",\"memberships\":[]\x7d"), n)

def usersClient : Service.Client :=
  ⟨"end-users", ⟨"http", [], none, some "users", none, ['/'], none, none, false⟩, none⟩

theorem membershipGone_emptied :
    MembershipGone emptiedNetwork usersClient "u1" "org1" fun _ => True := by
  constructor
  · intro _ _ _
    trivial
  · intro cancelled _ _ user answered
    cases cancelled with
    | true => exact absurd answered (by simp [Service.fetchMemberships, Service.Client.getJson])
    | false =>
      have empty : (Service.fetchMemberships emptiedNetwork usersClient (.authenticated "u1") "u1"
        false ()).1 = .ok ⟨"u1", []⟩ := by decide +kernel
      rw [empty, Except.ok.injEq] at answered
      subst answered
      rintro ⟨m, member, _⟩
      exact absurd member List.not_mem_nil

/-- The member is served, and where the service has ceased to report the membership nobody is. -/
theorem member_is_served_with_a_membership :
    (∃ record ∈ run hostRegistry memberServices [memberVisit] freshSite,
      ∃ inbound tenancy d user,
        .handling inbound ∈ record.events ∧ inbound.extensions.tenancy? = some tenancy ∧
        operationOf hostRegistry.table inbound = some d ∧
        record.events.filter Event.isMemberships =
          [.memberships (.authenticated "u1") "u1" (.ok user)] ∧
        Resolver.Granted user (detectionOf d inbound) tenancy) ∧
    ∀ (registry : Registry (Handler (Service.World Unit))) (visits : List (Visit _))
      (site : Site (Service.World Unit)),
      ∀ record ∈ run registry (Service.servicesOf emptiedNetwork Identifier.isValid
        (.client usersClient) .directory .trusting) visits site,
        ∀ inbound tenancy, .handling inbound ∈ record.events →
          inbound.extensions.caller = some (.authenticated "u1") →
          inbound.extensions.tenancy? = some tenancy → tenancy.tenantId ≠ "org1" := by
  refine ⟨?_, fun registry visits site record member inbound tenancy =>
    tenancy_is_of_current_membership.2 emptiedNetwork _ usersClient _ _ registry visits site "u1"
      "org1" _ membershipGone_emptied record member trivial inbound tenancy⟩
  have reached : (servedEvents hostRegistry memberServices memberVisit.took memberVisit.request
      freshSite).any (fun event => event.inbound?.any fun i =>
        i.extensions.caller == some (.authenticated "u1") && i.extensions.tenancy?.isSome) =
      true := by decide +kernel
  rw [List.any_eq_true] at reached
  obtain ⟨event, happened, shown⟩ := reached
  cases event with
  | handling inbound =>
    simp only [Event.inbound?, Option.any_some, Bool.and_eq_true, beq_iff_eq,
      Option.isSome_iff_exists] at shown
    obtain ⟨known, tenancy, held⟩ := shown
    obtain ⟨d, user, found, single, granted⟩ := tenancy_is_of_current_membership.1 hostRegistry
      memberServices [memberVisit] freshSite _ List.mem_cons_self inbound "u1" tenancy happened
      known held
    exact ⟨_, List.mem_cons_self, inbound, tenancy, d, user, happened, held, found, single, granted⟩
  | _ => simp [Event.inbound?] at shown

end TenantGate.Gate
