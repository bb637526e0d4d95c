import TenantGate.Proofs.Checkpoints
import TenantGate.Proofs.SettingsRoute
import TenantGate.Proofs.WireFormats

/-!
Errors of operations. Wherever a request is held up, it is answered with a problem document of the
status of the answer. The handlers answer in plain text instead where they cannot take the path or
the query.
-/
namespace TenantGate

open Api Http

variable {σ : Type}

namespace Api

theorem Problem.readWhole_text (p : Problem) :
    ProblemDocument.format.readWhole p.text = .ok p.document := by
  apply ProblemDocument.lawful.carries.returns
  have small := p.status.code.toNat_lt
  change p.status.code.toNat ≤ 65535
  omega

end Api

namespace Http

structure Response.IsProblem (r : Response) : Prop where
  mediaType : firstText? r.headers "content-type" = some Problem.mediaType
  document : ∃ d, ProblemDocument.format.readWhole r.body = .ok d ∧ d.status = r.status.code.toNat

end Http

namespace Gate

/-- The answer to a request is a problem, which goes without its body where no body is sent. -/
def AnswersProblem (request : Request) (answer : Response) : Prop :=
  ∃ whole : Response, whole.IsProblem ∧ answer = Host.withoutBody request whole

theorem firstText?_contentType (mediaType : String) (more : List Header)
    (visible : Header.text? (Utf8.encode mediaType) = some mediaType) :
    firstText? (.ofText "content-type" mediaType :: more) "content-type" = some mediaType := by
  simp only [firstText?, firstValue?, List.find?_cons, Header.ofText, beq_self_eq_true,
    Option.map_some, Option.bind_some, visible]

theorem finished_mediaType (request : Request) (status : Status) {mediaType : String} (body : String)
    (visible : Header.text? (Utf8.encode mediaType) = some mediaType) :
    firstText? (Host.finished request (.ofBody status mediaType body)).headers "content-type" =
      some mediaType := by
  obtain ⟨more, shown⟩ := Host.finished_eq request (.ofBody status mediaType body)
  rw [shown, Host.withoutBody_headers]
  exact firstText?_contentType mediaType more visible

theorem answersProblem_of_problem (request : Request) (p : Problem) :
    AnswersProblem request (Host.finished request p.respond) := by
  obtain ⟨more, shown⟩ := Host.finished_eq request p.respond
  refine ⟨{ p.respond with headers := p.respond.headers ++ more }, ⟨?_, ?_⟩, shown⟩
  · exact firstText?_contentType Problem.mediaType more (by decide +kernel)
  · exact ⟨p.document, p.readWhole_text, rfl⟩

def refusal? (inbound : Inbound) : Option String :=
  if inbound.template = Contracts.organizationSettings.path then
    match inbound.values with
    | .error name => some ("Invalid URL: Invalid UTF-8 in `" ++ name ++ "`")
    | .ok _ => none
  else if inbound.template = Contracts.tenancyReport.path ∧
      Handlers.repeatsOrganization inbound.request.uri = true then
    some "Failed to deserialize query string: duplicate field `organizationId`"
  else none

/-- What a handler answers: no error, a problem, or what it says to the path or the query. -/
inductive Handled (inbound : Inbound) : Response → Prop where
  | fine {r : Response} (taken : refusal? inbound = none) (success : r.status = .ok) :
      Handled inbound r
  | problem (taken : refusal? inbound = none) (p : Problem) : Handled inbound p.respond
  | refused {text : String} (refuses : refusal? inbound = some text) :
      Handled inbound (.plain .badRequest text)

theorem Handled.of_same {inbound inbound' : Inbound} {r : Response}
    (handled : Handled inbound' r) (same : refusal? inbound' = refusal? inbound) :
    Handled inbound r := by
  cases handled with
  | fine taken success => exact .fine (same ▸ taken) success
  | problem taken p => exact .problem (same ▸ taken) p
  | refused refuses => exact .refused (same ▸ refuses)

theorem refusal?_elsewhere {inbound : Inbound} {path : String} (here : inbound.template = path)
    (settings : path ≠ Contracts.organizationSettings.path)
    (report : path ≠ Contracts.tenancyReport.path) : refusal? inbound = none := by
  rw [refusal?, here, if_neg settings, if_neg fun both => report both.1]

theorem handled_organizationSettings {inbound : Inbound}
    (template : inbound.template = Contracts.organizationSettings.path) (site : Site σ) :
    Handled inbound (Handlers.organizationSettings inbound site).1 := by
  simp only [Handlers.organizationSettings]
  cases values : inbound.values with
  | error name =>
    apply Handled.refused
    rw [refusal?, if_pos template, values]
  | ok given =>
    have taken : refusal? inbound = none := by rw [refusal?, if_pos template, values]
    simp only
    split
    · exact .fine taken rfl
    · exact .problem taken _

theorem handled_tenancyReport {inbound : Inbound}
    (template : inbound.template = Contracts.tenancyReport.path) (site : Site σ) :
    Handled inbound (Handlers.tenancyReport inbound site).1 := by
  have elsewhere : inbound.template ≠ Contracts.organizationSettings.path := by
    rw [template]
    decide
  simp only [Handlers.tenancyReport]
  by_cases repeated : Handlers.repeatsOrganization inbound.request.uri = true
  · rw [if_pos repeated]
    apply Handled.refused
    rw [refusal?, if_neg elsewhere, if_pos ⟨template, repeated⟩]
  · have taken : refusal? inbound = none := by
      rw [refusal?, if_neg elsewhere, if_neg fun both => repeated both.2]
    rw [if_neg repeated]
    split
    · exact .fine taken rfl
    · exact .problem taken _

theorem handled_of_operation {e : Entry (Handler σ)} (member : e ∈ operations) {inbound : Inbound}
    (template : inbound.template = e.contract.path) (site : Site σ) :
    Handled inbound (e.handler inbound site).1 := by
  rcases List.mem_cons.mp member with rfl | member
  · have here : inbound.template = Contracts.recordCrash.path := template
    have taken := refusal?_elsewhere here (by decide) (by decide)
    simp only [Handlers.recordCrash]
    split
    · exact .fine taken rfl
    · exact .problem taken _
  rcases List.mem_cons.mp member with rfl | member
  · exact handled_organizationSettings template site
  rcases List.mem_cons.mp member with rfl | member
  · have here : inbound.template = Contracts.authorizeByNothing.path := template
    exact .fine (refusal?_elsewhere here (by decide) (by decide)) rfl
  rcases List.mem_singleton.mp member with rfl
  exact handled_tenancyReport template site

structure PlainRefusal (request : Request) (text : String) (answer : Response) : Prop where
  status : answer.status = .badRequest
  mediaType : firstText? answer.headers "content-type" = some "text/plain; charset=utf-8"
  body : answer.body = if request.method = .head then "" else text

theorem plainRefusal_of_plain (request : Request) (text : String) :
    PlainRefusal request text (Host.finished request (.plain .badRequest text)) := by
  refine ⟨Host.finished_status request _, ?_, Host.finished_body request _⟩
  exact finished_mediaType request .badRequest text (by decide +kernel)

theorem PlainRefusal.not_problem {request : Request} {text : String} {answer : Response}
    (plain : PlainRefusal request text answer) : ¬ AnswersProblem request answer := by
  rintro ⟨whole, problem, rfl⟩
  have mediaType := plain.mediaType
  rw [Host.withoutBody_headers, problem.mediaType] at mediaType
  exact absurd mediaType (by decide)

theorem answered_of_ends {table : RouteTable} {services : Services σ} {took : Durations}
    {e : Entry (Handler σ)} (member : e ∈ operations) {inbound : Inbound}
    (template : inbound.template = e.contract.path) {site : Site σ} {ending : Ending σ}
    (ends : Ends table services took e inbound site ending) :
    (ending.events.filter Event.isHandling = [] ∧ ∃ p : Problem, ending.response = p.respond) ∨
      (ending.events.filter Event.isHandling ≠ [] ∧ Handled inbound ending.response) := by
  have quiet := quiet_asked services inbound.request.headers site
  cases ends with
  | authentication unknown => exact .inl ⟨quiet, _, rfl⟩
  | access known guarded => exact .inl ⟨quiet, _, rfl⟩
  | tenancy resolved left =>
    obtain ⟨result, rule, settled⟩ := resolved.decided
    cases settled with
    | reject r => exact .inl ⟨resolved.quiet, _, rfl⟩
    | failed f => exact .inl ⟨resolved.quiet, _, rfl⟩
  | @handler caller s after made inbound' resolved left =>
    obtain ⟨_, _, result, rule, settled⟩ := resolved
    -- what the layers add is no part of the path or the query
    have same : refusal? inbound' = refusal? inbound ∧ inbound'.template = inbound.template := by
      cases settled <;> exact ⟨rfl, rfl⟩
    refine .inr ⟨?_, ?_⟩
    · simp [Event.isHandling]
    · exact (handled_of_operation member (same.2.trans template) after).of_same same.1

/-- An error that an operation answers is a problem, unless the handler was reached and cannot take
the path or the query, which it then says in plain text with the status of a bad request. -/
theorem errors_are_problems {testing : Bool} {registry : Registry (Handler σ)}
    (registered : registeredOperations testing = .ok registry) (services : Services σ)
    (took : Durations) {request : Request} {mount : Mount (Handler σ)} {inbound : Inbound}
    (requested : Host.operationFor? registry request = some (mount, inbound)) (site : Site σ) :
    (400 ≤ (Host.serve registry services took request site).1.status.code →
      (servedEvents registry services took request site).filter Event.isHandling = [] ∨
        refusal? inbound = none →
      AnswersProblem request (Host.serve registry services took request site).1) ∧
    ∀ text, refusal? inbound = some text →
      (servedEvents registry services took request site).filter Event.isHandling ≠ [] →
      PlainRefusal request text (Host.serve registry services took request site).1 ∧
        ¬ AnswersProblem request (Host.serve registry services took request site).1 := by
  obtain ⟨_, e, member, _, template, ending, ends, served, events, _⟩ :=
    served_ends (Built.empty.registerAll registered) services took requested site
  rw [served, events]
  have answered := answered_of_ends member template ends
  constructor
  · intro error taken
    rw [Host.finished_status] at error
    rcases answered with ⟨_, p, response⟩ | ⟨reached, handled⟩
    · rw [response]
      exact answersProblem_of_problem request p
    · have taken := taken.resolve_left reached
      generalize ending.response = response at handled error ⊢
      cases handled with
      | fine _ success =>
        rw [success] at error
        exact absurd error (by decide)
      | problem _ p => exact answersProblem_of_problem request p
      | refused refuses =>
        rw [taken] at refuses
        exact absurd refuses (by simp)
  · intro text refuses reached
    rcases answered with ⟨quiet, _⟩ | ⟨_, handled⟩
    · exact absurd quiet reached
    · generalize ending.response = response at handled ⊢
      cases handled with
      | fine taken _ | problem taken _ =>
        rw [refuses] at taken
        exact absurd taken (by simp)
      | refused refuses' =>
        obtain rfl := Option.some.inj (refuses.symm.trans refuses')
        have plain := plainRefusal_of_plain request text
        exact ⟨plain, plain.not_problem⟩

def memberFaultyRequest : Request :=
  { faultyRequest with headers := .ofText "authorization" "Bearer u1" :: faultyRequest.headers }

theorem faulty_requested (request : Request) (asks : request.method = .get)
    (path : request.uri.path = faultyRequest.uri.path) :
    Host.operationFor? hostRegistry request =
      some (settingsEntry.mount, settingsInbound request (Utf8.encode "%FF")) := by
  have registered : registeredOperations false = .ok hostRegistry := rfl
  have shape : faultyRequest.uri.path = settingsPath (Utf8.encode "%FF") := by decide +kernel
  exact operationFor?_settings registered asks (path.trans shape) (by decide +kernel)

/-- Without the token the request is answered with a problem. With it, the handler says in plain text
what is wrong with the path. -/
theorem faulty_request_is_answered :
    registeredOperations false = .ok hostRegistry ∧
      AnswersProblem faultyRequest
        (Host.serve hostRegistry memberServices .instant faultyRequest freshSite).1 ∧
      PlainRefusal memberFaultyRequest "Invalid URL: Invalid UTF-8 in `organization_id`"
        (Host.serve hostRegistry memberServices .instant memberFaultyRequest freshSite).1 := by
  have registered : registeredOperations false = .ok hostRegistry := rfl
  refine ⟨registered, ?_, ?_⟩
  · obtain ⟨problem, _⟩ := errors_are_problems registered memberServices .instant
      (faulty_requested faultyRequest rfl rfl) freshSite
    refine problem (by decide +kernel) (.inl ?_)
    have never : ((servedEvents hostRegistry memberServices .instant faultyRequest
        freshSite).filter Event.isHandling).isEmpty = true := by decide +kernel
    exact List.isEmpty_iff.mp never
  · obtain ⟨_, refused⟩ := errors_are_problems registered memberServices .instant
      (faulty_requested memberFaultyRequest rfl rfl) freshSite
    refine (refused _ (by decide +kernel) ?_).1
    intro never
    have reached : ((servedEvents hostRegistry memberServices .instant memberFaultyRequest
        freshSite).filter Event.isHandling).isEmpty = false := by decide +kernel
    rw [never] at reached
    exact absurd reached (by decide)

/-- A request for an operation, from a member, that is answered with an error that is no problem. -/
theorem unreadable_path_is_no_problem :
    (Host.operationFor? hostRegistry memberFaultyRequest).isSome = true ∧
      400 ≤ (Host.serve hostRegistry memberServices .instant memberFaultyRequest
        freshSite).1.status.code ∧
      ¬ AnswersProblem memberFaultyRequest
        (Host.serve hostRegistry memberServices .instant memberFaultyRequest freshSite).1 := by
  refine ⟨by decide +kernel, by decide +kernel, ?_⟩
  have plain : PlainRefusal memberFaultyRequest "Invalid URL: Invalid UTF-8 in `organization_id`"
      (Host.serve hostRegistry memberServices .instant memberFaultyRequest freshSite).1 :=
    ⟨by decide +kernel, by decide +kernel, by decide +kernel⟩
  exact plain.not_problem

end Gate

end TenantGate
