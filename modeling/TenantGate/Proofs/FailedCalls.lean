import TenantGate.Proofs.ErrorAnswers
import TenantGate.Proofs.Runs
import TenantGate.Proofs.Transcripts

/-!
Calls on other services that fail. However a call fails, the request it was made for is answered
with one problem, nothing more is asked for it, and nothing is remembered of it. So hosts over
networks that differ in how calls fail answer alike, then and later.
-/
namespace TenantGate

open Gate Api Net Auth

variable {ν ν' : Type} {N : ν → ν' → Prop}

inductive Failure.Indistinct : Failure → Failure → Prop where
  | same (f : Failure) : Indistinct f f
  | unavailable (message message' : String) :
      Indistinct (.serviceUnavailable message) (.serviceUnavailable message')

theorem Failure.kinship_indistinct : Kinship Indistinct := by
  refine ⟨.same, ?_⟩
  intro f f' akin
  cases akin with
  | same f => rfl
  | unavailable message message' => rfl

theorem Failure.ofFailure_of_indistinct {f f' : Failure} (akin : Indistinct f f') :
    Problem.ofFailure f = Problem.ofFailure f' := by
  cases akin with
  | same f => rfl
  | unavailable message message' => rfl

theorem Failure.Indistinct.answers_self {α : Type} (answer : Except Failure α) :
    AnswersAkin Indistinct answer answer := by
  cases answer with
  | ok a => exact .ok a
  | error f => exact .error (.same f)

theorem eq_of_repliesIndistinct {way : Http.Response → Http.Response} {r r' : Http.Response}
    (akin : RepliesAkin Failure.Indistinct way r r') : r = r' := by
  cases akin with
  | same r => rfl
  | failed akin => rw [Failure.ofFailure_of_indistinct akin]

def Api.Problem.unavailable : Problem :=
  .ofCode .serviceUnavailable "ServiceUnavailable" Problem.unavailableDetail

namespace Service

inductive Query.DeliveredAlike (q : Query) : Delivery → Delivery → Prop where
  | same (delivery : Delivery) : DeliveredAlike q delivery delivery
  | unanswered {first second : Delivery} (failed : q.Unanswered first)
      (failed' : q.Unanswered second) : DeliveredAlike q first second

/-- In related states the networks differ at most in how they fail to answer a query, and come to
related states. -/
def Parties.FailAlike (p : Parties) (N : ν → ν' → Prop) (network : Network ν)
    (network' : Network ν') : Prop :=
  ∀ q draft request n n', p.draft? q = some draft → draft.build = .ok request → N n n' →
    q.DeliveredAlike (network request n).1 (network' request n').1 ∧
      N (network request n).2 (network' request n').2

section Alike

variable {network : Network ν} {network' : Network ν'} {p : Parties}

/-- An answer is read out of what is sent for a query. Deliveries that answer nothing are read
alike. -/
theorem received_alike {α : Type} (alike : p.FailAlike N network network') {q : Query}
    {draft : Draft} (drafted : p.draft? q = some draft)
    {received : Except SendFault (Http.Status × List UInt8) → Except Failure α}
    (fails : ∀ delivery request, q.Unanswered delivery →
      ∃ message, received (delivery.sent request) = .error (.serviceUnavailable message))
    (n : ν) (n' : ν') (related : N n n') :
    AnswersAkin Failure.Indistinct (received (network.send draft n).1)
        (received (network'.send draft n').1) ∧
      N (network.send draft n).2 (network'.send draft n').2 := by
  cases built : draft.build with
  | error f =>
    rw [send_unbuilt built, send_unbuilt built]
    exact ⟨Failure.Indistinct.answers_self _, related⟩
  | ok request =>
    rw [send_built built, send_built built]
    obtain ⟨delivered, left⟩ := alike q draft request n n' drafted built related
    refine ⟨?_, left⟩
    simp only
    generalize (network request n).1 = first at delivered ⊢
    generalize (network' request n').1 = second at delivered ⊢
    cases delivered with
    | same => exact Failure.Indistinct.answers_self _
    | unanswered failed failed' =>
      obtain ⟨message, answer⟩ := fails first request failed
      obtain ⟨message', answer'⟩ := fails second request failed'
      rw [answer, answer']
      exact .error (.unavailable message message')

theorem akin_memberships (alike : p.FailAlike N network network') {c : Client}
    (asked : p.endUsers = .client c) (caller : Caller) (userId : String) (cancelled : Bool) :
    Call.Akin Failure.Indistinct N
      (c.getJson network User.format caller (membershipsPlace userId) cancelled)
      (c.getJson network' User.format caller (membershipsPlace userId) cancelled) := by
  have drafted := Parties.draft?_memberships asked caller userId
  exact akin_getJson Failure.kinship_indistinct
    (received_alike alike drafted fun _ request unanswered =>
      Client.received_unanswered c unanswered _ request) cancelled

theorem akin_settings (alike : p.FailAlike N network network') {c : Client}
    (asked : p.organizations = .client c) (caller : Caller) (tenantId : String)
    (cancelled : Bool) :
    Call.Akin Failure.Indistinct N
      (c.getJson network Settings.format caller (settingsPlace tenantId) cancelled)
      (c.getJson network' Settings.format caller (settingsPlace tenantId) cancelled) := by
  have drafted := Parties.draft?_settings asked caller tenantId
  exact akin_getJson Failure.kinship_indistinct
    (received_alike alike drafted fun _ request unanswered =>
      Client.received_unanswered c unanswered _ request) cancelled

theorem akin_freshVerdict (alike : p.FailAlike N network network') (token : String) :
    Call.Akin Failure.Indistinct N (freshVerdict network p.identity token)
      (freshVerdict network' p.identity token) := by
  by_cases trusting : p.identity.isMock = true
  · rw [freshVerdict, freshVerdict, if_pos trusting, if_pos trusting]
    exact Call.akin_done _
  · rw [freshVerdict, freshVerdict, if_neg trusting, if_neg trusting]
    have drafted := Parties.draft?_verdict trusting token
    intro n n' related
    rw [Identity.ask_eq, Identity.ask_eq]
    exact received_alike alike drafted (fun _ request unanswered =>
      Identity.received_unanswered unanswered request) n n' related

theorem akin_services (alike : p.FailAlike N network network') (isValid : String → Bool) :
    Services.Akin Failure.Indistinct (World.Beside N) (p.services network isValid)
      (p.services network' isValid) := by
  apply akin_servicesOf Failure.kinship_indistinct isValid _ _ (akin_freshVerdict alike)
  · apply (Backing.matches_self p.endUsers).mono
    rintro c _ asked _ rfl
    exact akin_memberships alike asked
  · apply (Backing.matches_self p.organizations).mono
    rintro c _ asked _ rfl
    exact akin_settings alike asked

end Alike

end Service

namespace Gate

open Service

structure SaysUnavailable (request : Http.Request) (answer : Http.Response) : Prop where
  status : answer.status.code = 503
  mediaType : Http.firstText? answer.headers "content-type" = some "application/problem+json"
  document : request.method ≠ .head → ProblemDocument.format.readWhole answer.body = .ok
    { type := "https://tools.ietf.org/html/rfc9110#section-15.6.4", title := "Service Unavailable",
      status := 503, detail := "A required service is temporarily unavailable",
      code := "ServiceUnavailable", errors := none }
  bare : request.method = .head → answer.body = ""

theorem saysUnavailable (request : Http.Request) :
    SaysUnavailable request (Host.finished request Problem.unavailable.respond) where
  status := congrArg Http.Status.code (Host.finished_status request Problem.unavailable.respond)
  mediaType := finished_mediaType request _ _ (by decide +kernel)
  document asks := by
    rw [Host.finished_body, if_neg asks]
    exact Problem.unavailable.readWhole_text
  bare asks := by rw [Host.finished_body, if_pos asks]

/-- A request to another service that brings no answer is the last one made, and what it was made
for is the last thing that happens. -/
theorem unanswered_is_last {testing : Bool}
    {registry : Registry (Handler (World (ν × List Exchange)))}
    (registered : registeredOperations testing = .ok registry) (p : Parties) (network : Network ν)
    (isValid : String → Bool) (took : Durations) (request : Http.Request)
    {site : Site (World (ν × List Exchange))} (fresh : site.services.network.2 = [])
    {before after : List Exchange} {x : Exchange}
    (sent : (Host.serve registry (p.services network.noting isValid) took request
      site).2.services.network.2 = before ++ x :: after) :
    ∃ q draft asked event more,
      p.draft? q = some draft ∧ draft.build = .ok x.request ∧ event.query? = some q ∧
      servedEvents registry (p.services network.noting isValid) took request site =
        asked ++ event :: more ∧
      (q.Unanswered x.delivery → after = [] ∧ more = [] ∧
        (Host.serve registry (p.services network.noting isValid) took request site).1 =
          Host.finished request Problem.unavailable.respond ∧
        SaysUnavailable request
          (Host.serve registry (p.services network.noting isValid) took request site).1) := by
  have transcribed := served_transcribed p network registered isValid took
    request fresh
  obtain ⟨asked, event, more, happened, made, behind⟩ := made_of_transcribed transcribed sent
  cases made with
  | @request q draft _ asks drafted built fails =>
    refine ⟨q, draft, asked, event, more, drafted, built, asks, happened, ?_⟩
    intro unanswered
    obtain ⟨message, failed⟩ := fails unanswered
    obtain ⟨rfl, answered⟩ :=
      failure_is_last (Built.empty.registerAll registered) _ took request site happened failed
    obtain ⟨parts, each, rfl⟩ := behind
    cases each
    exact ⟨rfl, rfl, answered, answered ▸ saysUnavailable request⟩

/-- How a call on another service fails makes no difference to anybody. Hosts over networks that
differ in nothing else answer every request alike, remember and count alike, and go on answering
alike. Where a call fails, nothing more is asked, and the answer is one fixed problem. -/
theorem failed_calls_look_alike {testing : Bool} {registry : Registry (Handler (World ν))}
    {registry' : Registry (Handler (World ν'))}
    (registered : registeredOperations testing = .ok registry)
    (registered' : registeredOperations testing = .ok registry') {p : Parties}
    {network : Network ν} {network' : Network ν'} (alike : p.FailAlike N network network')
    (isValid : String → Bool) :
    (∀ took request site site', Site.Alike (World.Beside N) site site' →
      (Host.serve registry (p.services network isValid) took request site).1 =
          (Host.serve registry' (p.services network' isValid) took request site').1 ∧
        Site.Alike (World.Beside N)
          (Host.serve registry (p.services network isValid) took request site).2
          (Host.serve registry' (p.services network' isValid) took request site').2) ∧
    (∀ visits visits' site site',
      List.Forall₂ (Visit.Alike (World.Beside N)) visits visits' →
      Site.Alike (World.Beside N) site site' →
      (run registry (p.services network isValid) visits site).map Record.response =
        (run registry' (p.services network' isValid) visits' site').map Record.response) ∧
    ∀ noted : Registry (Handler (World (ν × List Exchange))),
      registeredOperations testing = .ok noted → ∀ took request site,
      site.services.network.2 = [] → ∀ before x after,
      (Host.serve noted (p.services network.noting isValid) took request
        site).2.services.network.2 = before ++ x :: after →
      ∃ q draft asked event more,
        p.draft? q = some draft ∧ draft.build = .ok x.request ∧ event.query? = some q ∧
        servedEvents noted (p.services network.noting isValid) took request site =
          asked ++ event :: more ∧
        (q.Unanswered x.delivery → after = [] ∧ more = [] ∧
          (Host.serve noted (p.services network.noting isValid) took request site).1 =
            Host.finished request Problem.unavailable.respond ∧
          SaysUnavailable request
            (Host.serve noted (p.services network.noting isValid) took request site).1) := by
  have handled : RegistriesAlike (World.Beside N) registry registry' :=
    registries_alike (Built.empty.registerAll registered) (Built.empty.registerAll registered')
      operations_alike
  have serves (took : Durations) (request : Http.Request) (site : Site (World ν))
      (site' : Site (World ν')) (related : Site.Alike (World.Beside N) site site') :
      (Host.serve registry (p.services network isValid) took request site).1 =
          (Host.serve registry' (p.services network' isValid) took request site').1 ∧
        Site.Alike (World.Beside N)
          (Host.serve registry (p.services network isValid) took request site).2
          (Host.serve registry' (p.services network' isValid) took request site').2 := by
    obtain ⟨reply, left⟩ := Host.akin_serve Failure.kinship_indistinct handled
      (akin_services alike isValid) took request related
    exact ⟨eq_of_repliesIndistinct reply, left⟩
  refine ⟨serves, ?_, ?_⟩
  · intro visits visits' site site' same related
    exact responses_alike serves same related
  · intro noted registered'' took request site fresh before x after sent
    exact unanswered_is_last registered'' p network isValid took request fresh sent

def productionRegistry {σ : Type} : Registry (Handler σ) :=
  ⟨⟨(keptEntries false (operations : List (Entry (Handler σ)))).map Entry.descriptor⟩,
    (keptEntries false operations).map Entry.mount⟩

theorem productionRegistry_registered {σ : Type} :
    registeredOperations false = .ok (productionRegistry : Registry (Handler σ)) := rfl

def organizationsClient : Client :=
  ⟨"organizations", ⟨"http", [], none, some "organizations", none, ['/'], none, none, false⟩, none⟩

def localParties : Parties := ⟨.client usersClient, .client organizationsClient, localIdentity⟩

/-- The identity service accepts every token, and every lookup ends with the same delivery. -/
def lookupsEndWith (delivery : Delivery) : Network Unit := fun request n =>
  (if request.method = .post then
    .answered .ok (Utf8.encode "\x7b\"active\":true,\"sub\":\"u1\"\x7d") else delivery, n)

def brokenAnswer : Delivery := .answered .internalError (Utf8.encode "stack trace")

theorem unanswered_refused (q : Query) : q.Unanswered .refused := by
  cases q <;> trivial

theorem lookups_fail_alike :
    localParties.FailAlike Eq (lookupsEndWith .refused) (lookupsEndWith brokenAnswer) := by
  intro q draft request n n' drafted built _
  refine ⟨?_, rfl⟩
  obtain ⟨_, _, _, method, _⟩ := url_of_build built
  have broken : ∀ {α : Type} (format : Json.Format α), Client.Unanswered format brokenAnswer :=
    fun _ => ⟨by decide, fun success => absurd success (by decide)⟩
  simp only [lookupsEndWith, method]
  cases q with
  | verdict token =>
    rw [← Option.some.inj drafted]
    exact .same _
  | memberships caller userId =>
    rw [← Option.some.inj drafted]
    exact .unanswered trivial (broken _)
  | settings caller tenantId =>
    rw [← Option.some.inj drafted]
    exact .unanswered trivial (broken _)

def statusOf? : Delivery → Option Http.Status
  | .refused => none
  | .answered status _ => some status

def freshWorld {ν : Type} (network : ν) : Site (World ν) := ⟨.zero, .start, "", .start network⟩

/-- Whether the lookup of memberships is refused or ends with an error, a member gets one answer,
and is asked about no further. -/
theorem failed_memberships_look_alike :
    localParties.FailAlike Eq (lookupsEndWith .refused) (lookupsEndWith brokenAnswer) ∧
      (Host.serve productionRegistry
          (localParties.services (lookupsEndWith .refused) fun _ => true) .instant
          memberVisit.request (freshWorld ())).1 =
        (Host.serve productionRegistry
          (localParties.services (lookupsEndWith brokenAnswer) fun _ => true) .instant
          memberVisit.request (freshWorld ())).1 ∧
      (Host.serve productionRegistry
          (localParties.services (lookupsEndWith .refused).noting fun _ => true) .instant
          memberVisit.request (freshWorld ((), []))).1 =
        Host.finished memberVisit.request Problem.unavailable.respond ∧
      SaysUnavailable memberVisit.request
        (Host.serve productionRegistry
          (localParties.services (lookupsEndWith .refused).noting fun _ => true) .instant
          memberVisit.request (freshWorld ((), []))).1 := by
  obtain ⟨serves, _, ends⟩ := failed_calls_look_alike
    productionRegistry_registered productionRegistry_registered
    lookups_fail_alike fun _ => true
  refine ⟨lookups_fail_alike, ?_, ?_⟩
  · exact (serves .instant memberVisit.request _ _
      ⟨rfl, rfl, rfl, rfl, rfl, rfl, rfl, rfl⟩).1
  · have sent : (Host.serve productionRegistry
        (localParties.services (lookupsEndWith .refused).noting fun _ => true) .instant
        memberVisit.request (freshWorld ((), []))).2.services.network.2.map
          (fun x => statusOf? x.delivery) = [some .ok, none] := by decide +kernel
    obtain ⟨verdict, rest, split, _, more⟩ := List.map_eq_cons_iff.mp sent
    obtain ⟨memberships, none, rfl, refused, nothing⟩ := List.map_eq_cons_iff.mp more
    obtain ⟨q, _, _, _, _, _, _, _, _, last⟩ := ends productionRegistry
      productionRegistry_registered .instant memberVisit.request (freshWorld ((), [])) rfl
      [verdict] memberships none split
    have unanswered : q.Unanswered memberships.delivery := by
      cases delivered : memberships.delivery with
      | refused => exact unanswered_refused q
      | answered status body =>
        rw [delivered] at refused
        exact absurd refused (by simp [statusOf?])
    exact (last unanswered).2.2

end Gate

end TenantGate
