import TenantGate.Proofs.ErrorAnswers
import TenantGate.Proofs.FailedCalls

/-!
Hosts that ask the same services at other addresses. Where the services answer alike, so do the
hosts, but for one thing: the answer to a lookup that finds nothing names the path at which nothing
was found, and that path starts with the one of the service's address.
-/
namespace TenantGate

open Gate Api Net Auth

variable {ν ν' : Type} {N : ν → ν' → Prop}

namespace Service

def Client.missing (c : Client) (place : List String) : String :=
  c.name ++ " has no resource at " ++ String.ofList (c.endpoint place).path

def Client.IsMoved (c c' : Client) : Prop := c.name = c'.name ∧ c.token = c'.token

namespace Parties

structure Moved (p p' : Parties) : Prop where
  endUsers : p.endUsers.Matches Client.IsMoved p'.endUsers
  organizations : p.organizations.Matches Client.IsMoved p'.organizations
  identity : p.identity.isMock = p'.identity.isMock

inductive LookUp (p p' : Parties) : Client → Client → List String → Prop where
  | memberships {c c' : Client} (userId : String) (here : p.endUsers = .client c)
      (there : p'.endUsers = .client c') : LookUp p p' c c' (membershipsPlace userId)
  | settings {c c' : Client} (tenantId : String) (here : p.organizations = .client c)
      (there : p'.organizations = .client c') : LookUp p p' c c' (settingsPlace tenantId)

/-- The service answers a lookup at the place with nothing found. -/
def Absent (network : Network ν) (c : Client) (place : List String) : Prop :=
  ∃ caller n body, (network.send (c.draft caller place) n).1 = .ok (.notFound, body)

/-- What differs in the failures of the two: texts that are not shown, and where nothing was
found. -/
inductive FailApart (p p' : Parties) (network : Network ν) : Failure → Failure → Prop where
  | same (f : Failure) : FailApart p p' network f f
  | unavailable (message message' : String) :
      FailApart p p' network (.serviceUnavailable message) (.serviceUnavailable message')
  | missing {c c' : Client} {place : List String} (looks : p.LookUp p' c c' place)
      (absent : Absent network c place) :
      FailApart p p' network (.notFound (c.missing place)) (.notFound (c'.missing place))

theorem kinship_failApart (p p' : Parties) (network : Network ν) :
    Failure.Kinship (p.FailApart p' network) := by
  refine ⟨.same, ?_⟩
  intro f f' akin
  cases akin <;> rfl

end Parties

inductive SentAlike : Except SendFault (Http.Status × List UInt8) →
    Except SendFault (Http.Status × List UInt8) → Prop where
  | unsent (f f' : SendFault) : SentAlike (.error f) (.error f')
  | answered (status : Http.Status) (body : List UInt8) :
      SentAlike (.ok (status, body)) (.ok (status, body))

theorem sentAlike_self (sent : Except SendFault (Http.Status × List UInt8)) :
    SentAlike sent sent := by
  cases sent with
  | error f => exact .unsent f f
  | ok answer => exact .answered answer.1 answer.2

/-- In related states each query is answered alike, wherever it is sent to, and the networks come to
related states. -/
def Parties.AnswerAlike (p p' : Parties) (N : ν → ν' → Prop) (network : Network ν)
    (network' : Network ν') : Prop :=
  ∀ q draft draft' n n', p.draft? q = some draft → p'.draft? q = some draft' → N n n' →
    SentAlike (network.send draft n).1 (network'.send draft' n').1 ∧
      N (network.send draft n).2 (network'.send draft' n').2

section Moved

variable {network : Network ν} {network' : Network ν'} {p p' : Parties}

theorem readAnswer_missing (c : Client) {α : Type} (format : Json.Format α) (place : List String)
    (body : List UInt8) :
    c.readAnswer format (c.endpoint place) .notFound body =
      .error (.notFound (c.missing place)) := by
  simp only [Client.readAnswer, ↓reduceIte]
  rfl

theorem readAnswer_present {c c' : Client} (name : c.name = c'.name) {α : Type}
    (format : Json.Format α) (url url' : Url) {status : Http.Status} (present : status ≠ .notFound)
    (body : List UInt8) :
    c.readAnswer format url status body = c'.readAnswer format url' status body := by
  simp only [Client.readAnswer, if_neg present, name]

theorem received_apart {c c' : Client} {caller : Caller} {place : List String}
    (looks : p.LookUp p' c c' place) (name : c.name = c'.name) {α : Type} (format : Json.Format α)
    {n : ν} {sent' : Except SendFault (Http.Status × List UInt8)}
    (alike : SentAlike (network.send (c.draft caller place) n).1 sent') :
    AnswersAkin (p.FailApart p' network)
      (c.received format place (network.send (c.draft caller place) n).1)
      (c'.received format place sent') := by
  generalize answered : (network.send (c.draft caller place) n).1 = sent at alike ⊢
  cases alike with
  | unsent f f' => exact .error (.unavailable _ _)
  | answered status body =>
    simp only [Client.received]
    by_cases absent : status = .notFound
    · rw [absent] at answered ⊢
      rw [readAnswer_missing, readAnswer_missing]
      exact .error (.missing looks ⟨caller, n, body, answered⟩)
    · rw [readAnswer_present name format _ (c'.endpoint place) absent]
      cases c'.readAnswer format (c'.endpoint place) status body with
      | ok a => exact .ok a
      | error f => exact .error (.same f)

theorem moved_verdict (moved : p.Moved p') (alike : p.AnswerAlike p' N network network')
    (token : String) :
    Call.Akin (p.FailApart p' network) N (freshVerdict network p.identity token)
      (freshVerdict network' p'.identity token) := by
  have modes := moved.identity
  by_cases trusting : p'.identity.isMock = true
  · rw [freshVerdict, freshVerdict, if_pos trusting, if_pos (modes.trans trusting)]
    exact Call.akin_done _
  · have trusting' : ¬ p.identity.isMock = true := by
      rw [modes]
      exact trusting
    rw [freshVerdict, freshVerdict, if_neg trusting, if_neg trusting']
    intro n n' related
    rw [Identity.ask_eq, Identity.ask_eq]
    obtain ⟨sent, left⟩ := alike _ _ _ n n' (Parties.draft?_verdict trusting' token)
      (Parties.draft?_verdict trusting token) related
    refine ⟨?_, left⟩
    simp only
    generalize (network.send _ n).1 = first at sent ⊢
    generalize (network'.send _ n').1 = second at sent ⊢
    cases sent with
    | unsent f f' => exact .error (.unavailable _ _)
    | answered status body =>
      simp only [Identity.received]
      cases Identity.readAnswer status body with
      | ok verdict => exact .ok verdict
      | error f => exact .error (.same f)

theorem moved_lookup (alike : p.AnswerAlike p' N network network') {q : Query} {c c' : Client}
    {caller : Caller} {place : List String} (looks : p.LookUp p' c c' place)
    (name : c.name = c'.name) (drafted : p.draft? q = some (c.draft caller place))
    (drafted' : p'.draft? q = some (c'.draft caller place)) {α : Type} (format : Json.Format α)
    (cancelled : Bool) :
    Call.Akin (p.FailApart p' network) N (c.getJson network format caller place cancelled)
      (c'.getJson network' format caller place cancelled) := by
  apply akin_getJson (p.kinship_failApart p' network)
  intro n n' related
  obtain ⟨sent, left⟩ := alike q _ _ n n' drafted drafted' related
  exact ⟨received_apart looks name format sent, left⟩

theorem moved_services (moved : p.Moved p') (alike : p.AnswerAlike p' N network network')
    (isValid : String → Bool) :
    Services.Akin (p.FailApart p' network) (World.Beside N) (p.services network isValid)
      (p'.services network' isValid) := by
  apply akin_servicesOf (p.kinship_failApart p' network) isValid _ _ (moved_verdict moved alike)
  · apply moved.endUsers.mono
    intro c c' here there same caller userId cancelled
    exact moved_lookup alike (.memberships userId here there) same.1
      (Parties.draft?_memberships here caller userId)
      (Parties.draft?_memberships there caller userId) User.format cancelled
  · apply moved.organizations.mono
    intro c c' here there same caller tenantId cancelled
    exact moved_lookup alike (.settings tenantId here there) same.1
      (Parties.draft?_settings here caller tenantId)
      (Parties.draft?_settings there caller tenantId) Settings.format cancelled

end Moved

end Service

namespace Gate

open Service

theorem detail_of_text {first second : Problem} (same : first.text = second.text) :
    first.detail = second.detail := by
  have read := first.readWhole_text
  rw [same, second.readWhole_text] at read
  exact (congrArg ProblemDocument.detail (Except.ok.inj read)).symm

def notFoundAnswer (request : Http.Request) (c : Client) (place : List String) : Http.Response :=
  Host.finished request (Problem.ofFailure (.notFound (c.missing place))).respond

theorem notFoundAnswer_eq_iff {request : Http.Request} (shown : request.method ≠ .head)
    {c c' : Client} (name : c.name = c'.name) (place : List String) :
    notFoundAnswer request c place = notFoundAnswer request c' place ↔
      (c.endpoint place).path = (c'.endpoint place).path := by
  constructor
  · intro same
    have bodies := congrArg Http.Response.body same
    rw [notFoundAnswer, notFoundAnswer, Host.finished_body, Host.finished_body, if_neg shown,
      if_neg shown] at bodies
    have details : "not found: " ++ c.missing place = "not found: " ++ c'.missing place :=
      detail_of_text bodies
    have missing := (String.append_right_inj _).mp details
    rw [Client.missing, Client.missing, name] at missing
    exact String.ofList_injective ((String.append_right_inj _).mp missing)
  · intro path
    rw [notFoundAnswer, notFoundAnswer, Client.missing, Client.missing, name, path]

theorem name_of_lookUp {p p' : Parties} (moved : p.Moved p') {c c' : Client}
    {place : List String} (looks : p.LookUp p' c c' place) : c.name = c'.name := by
  cases looks with
  | memberships userId here there =>
    have matched := moved.endUsers
    rw [here, there] at matched
    cases matched with
    | client same => exact same.1
  | settings tenantId here there =>
    have matched := moved.organizations
    rw [here, there] at matched
    cases matched with
    | client same => exact same.1

/-- Hosts that ask services at different addresses, where these answer alike, are left alike by
every request, and answer it alike unless a lookup finds nothing. Then each answers with the path at
which it found nothing, so that the answers are the same only if the paths of the addresses are. -/
theorem addresses_show_where_nothing_is_found {testing : Bool}
    {registry : Registry (Handler (World ν))} {registry' : Registry (Handler (World ν'))}
    (registered : registeredOperations testing = .ok registry)
    (registered' : registeredOperations testing = .ok registry') {p p' : Parties}
    (moved : p.Moved p') {network : Network ν} {network' : Network ν'}
    (alike : p.AnswerAlike p' N network network') (isValid : String → Bool) (took : Durations)
    (request : Http.Request) {site : Site (World ν)} {site' : Site (World ν')}
    (related : Site.Alike (World.Beside N) site site') :
    Site.Alike (World.Beside N)
        (Host.serve registry (p.services network isValid) took request site).2
        (Host.serve registry' (p'.services network' isValid) took request site').2 ∧
      ((Host.serve registry (p.services network isValid) took request site).1 =
          (Host.serve registry' (p'.services network' isValid) took request site').1 ∨
        ∃ c c' place, p.LookUp p' c c' place ∧ Parties.Absent network c place ∧
          (Host.serve registry (p.services network isValid) took request site).1 =
            notFoundAnswer request c place ∧
          (Host.serve registry' (p'.services network' isValid) took request site').1 =
            notFoundAnswer request c' place ∧
          (request.method ≠ .head →
            (notFoundAnswer request c place = notFoundAnswer request c' place ↔
              (c.endpoint place).path = (c'.endpoint place).path))) ∧
      ∀ x ∈ servedEvents registry (p.services network isValid) took request site,
        ∀ c place, x.failure? = some (.notFound (Client.missing c place)) →
        (Host.serve registry (p.services network isValid) took request site).1 =
          notFoundAnswer request c place := by
  have built : Built testing operations registry := Built.empty.registerAll registered
  have handled : RegistriesAlike (World.Beside N) registry registry' :=
    registries_alike built (Built.empty.registerAll registered') operations_alike
  obtain ⟨reply, left⟩ := Host.akin_serve (p.kinship_failApart p' network) handled
    (moved_services moved alike isValid) took request related
  refine ⟨left, ?_, ?_⟩
  · generalize (Host.serve registry (p.services network isValid) took request site).1 = r at reply ⊢
    generalize (Host.serve registry' (p'.services network' isValid) took request site').1 = r'
      at reply ⊢
    cases reply with
    | same => exact .inl rfl
    | failed akin =>
      cases akin with
      | same f => exact .inl rfl
      | unavailable message message' => exact .inl rfl
      | @missing c c' place looks absent =>
        exact .inr ⟨c, c', place, looks, absent, rfl, rfl, fun shown =>
          notFoundAnswer_eq_iff shown (name_of_lookUp moved looks) place⟩
  · intro x among c place failed
    obtain ⟨before, after, happened⟩ := List.append_of_mem among
    exact (failure_is_last built _ took request site happened failed).2

def versionedUsers : Client :=
  ⟨"end-users", { usersClient.base with path := "/v1".toList }, none⟩

def versionedParties : Parties := { localParties with endUsers := .client versionedUsers }

theorem versionedParties_moved : localParties.Moved versionedParties :=
  ⟨.client ⟨rfl, rfl⟩, .client ⟨rfl, rfl⟩, rfl⟩

theorem lookup_refused {draft : Draft} (looks : draft.method = .get) (n : Unit) :
    ∃ f, ((lookupsEndWith .refused).send draft n).1 = .error f := by
  cases built : draft.build with
  | error f => exact ⟨f, by rw [send_unbuilt built]⟩
  | ok request =>
    obtain ⟨_, _, _, method, _⟩ := url_of_build built
    rw [send_built built, lookupsEndWith, if_neg (by rw [method, looks]; decide)]
    exact ⟨_, rfl⟩

theorem refusals_are_alike :
    localParties.AnswerAlike versionedParties Eq (lookupsEndWith .refused)
      (lookupsEndWith .refused) := by
  have apart (draft draft' : Draft) (looks : draft.method = .get) (looks' : draft'.method = .get)
      (n n' : Unit) : SentAlike ((lookupsEndWith .refused).send draft n).1
        ((lookupsEndWith .refused).send draft' n').1 := by
    obtain ⟨f, sent⟩ := lookup_refused looks n
    obtain ⟨f', sent'⟩ := lookup_refused looks' n'
    rw [sent, sent']
    exact .unsent f f'
  intro q draft draft' n n' drafted drafted' _
  refine ⟨?_, rfl⟩
  cases q with
  | verdict token =>
    rw [← Option.some.inj drafted, ← Option.some.inj drafted']
    exact sentAlike_self _
  | memberships caller userId =>
    rw [← Option.some.inj drafted, ← Option.some.inj drafted']
    exact apart _ _ rfl rfl n n'
  | settings caller tenantId =>
    rw [← Option.some.inj drafted, ← Option.some.inj drafted']
    exact apart _ _ rfl rfl n n'

/-- That lookups are refused is answered alike, wherever the service of users is. -/
theorem refused_lookups_show_no_address :
    localParties.Moved versionedParties ∧
      (Host.serve productionRegistry
          (localParties.services (lookupsEndWith .refused) fun _ => true) .instant
          memberVisit.request (freshWorld ())).1 =
        (Host.serve productionRegistry
          (versionedParties.services (lookupsEndWith .refused) fun _ => true) .instant
          memberVisit.request (freshWorld ())).1 := by
  have related : Site.Alike (World.Beside Eq) (freshWorld ()) (freshWorld ()) :=
    ⟨rfl, rfl, rfl, rfl, rfl, rfl, rfl, rfl⟩
  obtain ⟨_, shown, _⟩ := addresses_show_where_nothing_is_found productionRegistry_registered
    productionRegistry_registered versionedParties_moved refusals_are_alike (fun _ => true)
    .instant memberVisit.request related
  refine ⟨versionedParties_moved, ?_⟩
  rcases shown with same | ⟨c, c', place, _, ⟨caller, n, body, absent⟩, _⟩
  · exact same
  · obtain ⟨f, refused⟩ := lookup_refused (rfl : (c.draft caller place).method = .get) n
    rw [absent] at refused
    exact absurd refused (by simp)

def absentUsers : Network Unit := lookupsEndWith (.answered .notFound [])

/-- It answers whatever it is asked at any address, and yet the path of its address is shown. -/
theorem path_of_address_is_shown :
    localParties.Moved versionedParties ∧
      (∀ first second : Outgoing, first.method = second.method →
        absentUsers first = absentUsers second) ∧
      (Host.serve productionRegistry (localParties.services absentUsers fun _ => true) .instant
          memberVisit.request (freshWorld ())).1 =
        notFoundAnswer memberVisit.request usersClient (membershipsPlace "u1") ∧
      (Host.serve productionRegistry (versionedParties.services absentUsers fun _ => true) .instant
          memberVisit.request (freshWorld ())).1 =
        notFoundAnswer memberVisit.request versionedUsers (membershipsPlace "u1") ∧
      notFoundAnswer memberVisit.request usersClient (membershipsPlace "u1") ≠
        notFoundAnswer memberVisit.request versionedUsers (membershipsPlace "u1") := by
  refine ⟨versionedParties_moved, ?_, by decide +kernel, by decide +kernel, by decide +kernel⟩
  intro first second same
  funext n
  simp only [absentUsers, lookupsEndWith, same]

end Gate

end TenantGate
