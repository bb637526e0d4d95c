import TenantGate.Proofs.Plans
import TenantGate.Proofs.Transcripts

/-!
Requests that are served from a record of what services have answered before. The answers are given
one after the other, whatever is asked, so it is for the record of what is asked now to show that it
was the right question. Where a plan has been carried out in pieces, its record brings a host that
serves the request without a break to the same point.
-/
namespace TenantGate

open Gate Api Auth

variable {σ τ α : Type}

namespace Gate

def recalled (isValid : String → Bool) : Services (List Event) where
  memberships _ _ _
    | .memberships _ _ answer :: rest => (answer, rest)
    | events => (.error (.internal "No memberships on record"), events)
  settings _ _ _
    | .settings _ _ answer :: rest => (answer, rest)
    | events => (.error (.internal "No settings on record"), events)
  introspect _
    | .introspection _ answer :: rest => (answer, rest)
    | events => (.error (.internal "No verdict on record"), events)
  isValid := isValid

end Gate

namespace Plan

variable {isValid : String → Bool} {plan left : Plan α} {events : List Event}

/-- With what is on record the plan gets to where the other one goes on, having asked for that. -/
def Resumes (isValid : String → Bool) (plan : Plan α) (events : List Event) (left : Plan α) :
    Prop :=
  ∀ (site : Site (Noted (List Event))) (rest : List Event), site.services = ⟨events ++ rest, []⟩ →
    ∃ site', site'.services = ⟨rest, events⟩ ∧
      plan.run (recalled isValid).noting site = left.run (recalled isValid).noting site'

theorem resumes_start (plan : Plan α) : plan.Resumes isValid [] plan :=
  fun site _ start => ⟨site, start, rfl⟩

theorem Resumes.quietly (resumes : plan.Resumes isValid events left) {next : Plan α}
    (change : Site (Noted (List Event)) → Site (Noted (List Event)))
    (keeps : ∀ site, (change site).services = site.services)
    (goes : ∀ site, left.run (recalled isValid).noting site =
      next.run (recalled isValid).noting (change site)) : plan.Resumes isValid events next := by
  intro site rest start
  obtain ⟨site', here, same⟩ := resumes site rest start
  exact ⟨change site', (keeps site').trans here, same.trans (goes site')⟩

theorem Resumes.told (resumes : plan.Resumes isValid events left) {next : Plan α} {event : Event}
    (goes : ∀ site rest, site.services = ⟨event :: rest, events⟩ →
      left.run (recalled isValid).noting site =
        next.run (recalled isValid).noting (site.putServices ⟨rest, events ++ [event]⟩)) :
    plan.Resumes isValid (events ++ [event]) next := by
  intro site rest start
  rw [List.append_assoc] at start
  obtain ⟨site', here, same⟩ := resumes site (event :: rest) start
  exact ⟨_, rfl, same.trans (goes site' rest here)⟩

theorem Resumes.count {c : Telemetry.Counter}
    (resumes : plan.Resumes isValid events (.count c left)) :
    plan.Resumes isValid events left :=
  resumes.quietly (Site.count c) (fun _ => rfl) fun _ => rfl

theorem Resumes.observe {l : Telemetry.Latency} {took : UInt64}
    (resumes : plan.Resumes isValid events (.observe l took left)) :
    plan.Resumes isValid events left :=
  resumes.quietly (Site.observe l took) (fun _ => rfl) fun _ => rfl

theorem Resumes.publish {tenancy : Tenancy} {inbound : Inbound}
    {next : Except Failure Inbound → Plan α}
    (resumes : plan.Resumes isValid events (.publish tenancy inbound next)) :
    plan.Resumes isValid events (next (Gate.publish tenancy inbound)) :=
  resumes.quietly id (fun _ => rfl) fun _ => rfl

theorem Resumes.verdict {token : String} {next : Except Failure Introspection → Plan α}
    (resumes : plan.Resumes isValid events (.askVerdict token next))
    (answer : Except Failure Introspection) :
    plan.Resumes isValid (events ++ [.introspection token answer]) (next answer) := by
  apply resumes.told
  intro site rest here
  simp only [run, Call.onPart, Services.noting, Call.noting, recalled, here]

theorem Resumes.memberships {caller : Caller} {userId : String} {cancelled : Bool}
    {next : Except Failure User → Plan α}
    (resumes : plan.Resumes isValid events (.askMemberships caller userId cancelled next))
    (answer : Except Failure User) :
    plan.Resumes isValid (events ++ [.memberships caller userId answer]) (next answer) := by
  apply resumes.told
  intro site rest here
  simp only [run, Call.onPart, Services.noting, Collaborators.noting, Call.noting, recalled, here]

theorem Resumes.settings {caller : Caller} {tenantId : String} {cancelled : Bool}
    {next : Except Failure Settings → Plan α}
    (resumes : plan.Resumes isValid events (.askSettings caller tenantId cancelled next))
    (answer : Except Failure Settings) :
    plan.Resumes isValid (events ++ [.settings caller tenantId answer]) (next answer) := by
  apply resumes.told
  intro site rest here
  simp only [run, Call.onPart, Services.noting, Collaborators.noting, Call.noting, recalled, here]

end Plan

namespace Gate

namespace Host

variable {R : τ → σ → Prop} {registry : Registry (Handler τ)} {registry' : Registry (Handler σ)}

theorem mountFor?_alike (alike : RegistriesAlike R registry registry') (template : String)
    (method : Http.Method) :
    Option.Rel (MountsAlike R) (mountFor? registry template method)
      (mountFor? registry' template method) := by
  have there := alike.handlers
  simp only [mountFor?]
  generalize registry.handlers = mounts at there ⊢
  generalize registry'.handlers = mounts' at there ⊢
  induction there with
  | nil => exact .none
  | cons first rest ih =>
    simp only [List.find?_cons, first.path, first.method]
    split
    · exact .some first
    · exact ih

theorem matched?_of_alike (alike : RegistriesAlike R registry registry') (path : List UInt8) :
    matched? registry path = matched? registry' path := by
  have paths : registry.handlers.map Mount.path = registry'.handlers.map Mount.path := by
    have there := alike.handlers
    generalize registry.handlers = mounts at there ⊢
    generalize registry'.handlers = mounts' at there ⊢
    induction there with
    | nil => rfl
    | cons first rest ih => simp only [List.map_cons, first.path, ih]
  rw [matched?_eq, matched?_eq, paths]

theorem operationFor?_alike (alike : RegistriesAlike R registry registry') {request : Http.Request}
    {mount : Mount (Handler τ)} {inbound : Inbound}
    (requested : operationFor? registry request = some (mount, inbound)) :
    ∃ mount', operationFor? registry' request = some (mount', inbound) ∧
      MountsAlike R mount mount' := by
  obtain ⟨m, matched, rfl, found⟩ := operationFor?_inbound requested
  have filed := mountFor?_alike alike m.template request.method
  rw [found] at filed
  cases found' : mountFor? registry' m.template request.method with
  | none =>
    rw [found'] at filed
    exact absurd filed (by rintro ⟨⟩)
  | some mount' =>
    rw [found'] at filed
    cases filed with
    | some same =>
      refine ⟨mount', ?_, same⟩
      unfold operationFor? at requested ⊢
      split at requested
      · exact absurd requested (by simp)
      · rename_i asks
        rw [if_neg asks, ← matched?_of_alike alike, matched, Option.bind_some, found',
          Option.map_some]

end Host

theorem operations_answer_alone : ∀ e ∈ (operations : List (Entry (Handler σ))),
    ∀ inbound site site', (e.handler inbound site).1 = (e.handler inbound site').1 := by
  intro e member inbound site site'
  rcases List.mem_cons.mp member with rfl | member
  · simp only [Handlers.recordCrash]
    split <;> rfl
  rcases List.mem_cons.mp member with rfl | member
  · simp only [Handlers.organizationSettings]
    split
    · rfl
    · split <;> rfl
  rcases List.mem_cons.mp member with rfl | member
  · rfl
  rcases List.mem_singleton.mp member with rfl
  simp only [Handlers.tenancyReport]
  split
  · rfl
  · split <;> rfl

section Served

variable {testing : Bool} {registry : Registry (Handler σ)} {registry' : Registry (Handler τ)}
  {request : Http.Request} {mount : Mount (Handler σ)} {inbound : Inbound}

theorem handled_alike (registered : registeredOperations testing = .ok registry)
    (registered' : registeredOperations testing = .ok registry')
    (requested : Host.operationFor? registry request = some (mount, inbound)) :
    registry'.table = registry.table ∧
      ∃ mount', Host.operationFor? registry' request = some (mount', inbound) ∧
        ∀ i s t, (mount.handler i s).1 = (mount'.handler i t).1 := by
  have built : Built testing operations registry := Built.empty.registerAll registered
  have alike : RegistriesAlike (fun _ _ => True) registry registry' :=
    registries_alike built (Built.empty.registerAll registered') operations_alike
  obtain ⟨mount', requested', same⟩ := Host.operationFor?_alike alike requested
  obtain ⟨e, member, rfl, _⟩ := Host.operationOf_requested built requested
  refine ⟨alike.table.symm, mount', requested', ?_⟩
  intro i s t
  exact (operations_answer_alone e member i s (t.withServices s.services)).trans
    (same.handler i _ t ⟨rfl, rfl, rfl, trivial⟩).1

theorem served_operation
    (requested : Host.operationFor? registry request = some (mount, inbound))
    (services : Services σ) (took : Durations) (site : Site σ) :
    let noted := (Step.all registry.table services.noting took).layer (notingHandler mount.handler)
      inbound site.noting
    Host.serve registry services took request site =
        (Host.finished request noted.1, noted.2.forget) ∧
      servedEvents registry services took request site = noted.2.services.events := by
  have noted : Host.operationFor? (notingRegistry registry) request =
      some (notingMount mount, inbound) := by
    rw [Host.operationFor?_noting, requested]
    rfl
  obtain ⟨answer, left⟩ := noting_serve registry services took request site
  rw [Host.serve_operation noted] at answer left
  exact ⟨Prod.ext answer.symm left.symm, servedEvents_operation requested services took site⟩

variable {isValid : String → Bool} {took : Durations} {registry : Registry (Handler (List Event))}
  {mount : Mount (Handler (List Event))} {events : List Event}

theorem served_of_answered
    (requested : Host.operationFor? registry request = some (mount, inbound))
    {response : Http.Response}
    (resumes : (Plan.steps registry.table isValid took inbound).Resumes isValid events
      (.done (.error response))) (site : Site (List Event)) (recorded : site.services = events) :
    (Host.serve registry (recalled isValid) took request site).1 =
        Host.finished request response ∧
      servedEvents registry (recalled isValid) took request site = events := by
  obtain ⟨served, happened⟩ := served_operation requested (recalled isValid) took site
  have start : site.noting.services = ⟨events ++ [], []⟩ := by
    rw [List.append_nil, ← recorded]
    rfl
  obtain ⟨site', left, ran⟩ := resumes site.noting [] start
  have went : Step.all registry.table (recalled isValid).noting took inbound site.noting =
      (.error response, site') := by
    rw [← Plan.run_steps]
    exact ran
  rw [served, happened]
  simp only [Step.layer, went, left, and_self]

theorem served_of_handled
    (requested : Host.operationFor? registry request = some (mount, inbound)) {handled : Inbound}
    (resumes : (Plan.steps registry.table isValid took inbound).Resumes isValid events
      (.done (.ok handled))) (site : Site (List Event))
    (recorded : site.services = events ++ [.handling handled]) :
    (∃ after, (Host.serve registry (recalled isValid) took request site).1 =
        Host.finished request (mount.handler handled after).1) ∧
      servedEvents registry (recalled isValid) took request site =
        events ++ [.handling handled] := by
  obtain ⟨served, happened⟩ := served_operation requested (recalled isValid) took site
  have start : site.noting.services = ⟨events ++ [.handling handled], []⟩ := by
    rw [← recorded]
    rfl
  obtain ⟨site', left, ran⟩ := resumes site.noting _ start
  have went : Step.all registry.table (recalled isValid).noting took inbound site.noting =
      (.ok handled, site') := by
    rw [← Plan.run_steps]
    exact ran
  rw [served, happened]
  simp only [Step.layer, went, notingHandler, Site.withServices, left]
  exact ⟨⟨site'.forget, rfl⟩, trivial⟩

end Served

end Gate

end TenantGate
