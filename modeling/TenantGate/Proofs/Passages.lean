import TenantGate.Proofs.ClassifiedCalls
import TenantGate.Proofs.Endpoints
import TenantGate.Proofs.OwnAnswers
import TenantGate.Proofs.Remembering
import TenantGate.Proofs.Replay

/-!
Requests on their way through a host that others are served by, too. They share the metrics, the
network and the two memories of the host, and each goes on step by step, between which others take
theirs. What every step keeps: all that is remembered, and all that a request was told, comes from
one of the requests that have been sent, and a host that is told the same again gets as far.
-/
namespace TenantGate

open Gate Api Net Auth Service

variable {ν α : Type}

namespace Service

/-- The service was asked, on behalf of the caller, for a part of what is filed under the identifier,
and has told it. An identifier that a segment can stand for is the one in the address. -/
structure Client.TellsOf (c : Client) (format : Json.Format α) (caller : Caller)
    (kind id part : String) (a : α) (x : Exchange) : Prop where
  asked : c.AskedBy caller ["private", kind, id, part] x.request
  service : x.request.url.scheme = c.base.scheme ∧ x.request.url.host = c.base.host ∧
    x.request.url.port = c.base.port
  named : Addressable id → NamedUnder (kindPath c.base kind) id part x.request.url
  told : ∃ status body, x.delivery = .answered status body ∧ status.isSuccess = true ∧
    format.readBytes body = .ok a

theorem Client.tellsOf_of_tells {c : Client} {format : Json.Format α} {caller : Caller}
    {kind id part : String} (kinds : kind.toList.all Identifier.isSmallLetter = true)
    (parts : part.toList.all Identifier.isSmallLetter = true) {a : α} {x : Exchange}
    (tells : Tells (c.draft caller ["private", kind, id, part])
      (c.received format ["private", kind, id, part]) a x) :
    c.TellsOf format caller kind id part a x := by
  have asked := askedBy_of_build tells.1
  have web : c.base.IsWeb := by
    obtain ⟨url, address, sendable, _⟩ := (built_iff _).mp ⟨_, tells.1⟩
    obtain rfl := Except.ok.inj address
    simp only [isSendable, Bool.and_eq_true, Bool.or_eq_true, beq_iff_eq] at sendable
    exact sendable.1.2
  refine ⟨asked, ?_, fun addressable => ?_, ?_⟩
  · rw [asked.address]
    exact ⟨rfl, rfl, rfl⟩
  · rw [asked.address]
    exact (namedUnder_iff web kinds parts id).mpr addressable
  · obtain ⟨value, _⟩ := received_classified c format ["private", kind, id, part] x.request x.delivery
    obtain ⟨status, body, delivered, success, decodes⟩ := (value a).mp tells.2
    exact ⟨status, body, delivered, success, (format.readBytes_ok_iff body a).mpr decodes⟩

theorem introspects_of_tells {identity : Identity} {token : String} {verdict : Introspection}
    {x : Exchange} (tells : Tells (question identity token) Identity.received verdict x) :
    Introspects identity token verdict x := by
  obtain ⟨request, delivery⟩ := x
  cases delivery with
  | refused => exact absurd tells.2 (by simp [Delivery.sent, Identity.received])
  | answered status body => exact introspects_of_build tells.1 tells.2

end Service

namespace Gate

/-- A host whose collaborators and whose identity service are asked over the network. -/
structure Wiring (ν : Type) where
  network : Network ν
  endUsers : Client
  organizations : Client
  identity : Identity
  real : identity.isMock = false
  isValid : String → Bool

abbrev Shared (ν : Type) := Site (World (ν × List Exchange))

abbrev Course := Plan (Except Http.Response Inbound)

inductive Pursuit where
  | planned (course : Course)
  | verdict (token : String) (stage : Recall Introspection)
      (next : Except Failure Introspection → Course)
  | settings (caller : Caller) (tenantId : String) (cancelled : Bool) (stage : Recall Settings)
      (next : Except Failure Settings → Course)

inductive Place (ν : Type) where
  | elsewhere
  | within (handler : Handler (World (ν × List Exchange))) (pursuit : Pursuit)
  | out (response : Http.Response)

structure Passage (ν : Type) where
  request : Http.Request
  took : Durations
  events : List Event
  place : Place ν

structure Incoming where
  request : Http.Request
  took : Durations

namespace Wiring

def services (w : Wiring ν) : Services (World (ν × List Exchange)) :=
  servicesOf w.network.noting w.isValid (.client w.endUsers) (.client w.organizations) w.identity

def askVerdict (w : Wiring ν) (token : String) : Call (ν × List Exchange) Introspection :=
  w.identity.ask w.network.noting token

def askSettings (w : Wiring ν) (caller : Caller) (tenantId : String) (cancelled : Bool) :
    Call (ν × List Exchange) Settings :=
  w.organizations.getJson w.network.noting Settings.format caller (settingsPlace tenantId) cancelled

end Wiring

/-- The next step of what a request is at. What has happened in it is added to the events. -/
def Pursuit.step (w : Wiring ν) (events : List Event) :
    Pursuit → Shared ν → (List Event × Pursuit) × Shared ν
  | .planned (.done r), site => ((events, .planned (.done r)), site)
  | .planned (.count c next), site => ((events, .planned next), site.count c)
  | .planned (.observe l took next), site => ((events, .planned next), site.observe l took)
  | .planned (.askVerdict token next), site => ((events, .verdict token .look next), site)
  | .planned (.askMemberships caller userId cancelled next), site =>
    let (answer, site) := (w.services.memberships caller userId cancelled).onPart Site.services
      Site.putServices site
    ((events ++ [.memberships caller userId answer], .planned (next answer)), site)
  | .planned (.askSettings caller tenantId cancelled next), site =>
    ((events, .settings caller tenantId cancelled .look next), site)
  | .planned (.publish tenancy inbound next), site =>
    ((events, .planned (next (publish tenancy inbound))), site)
  | .verdict token stage next, site =>
    Recall.advance
      ((Backing.onVerdicts (stage.step token (w.askVerdict token))).onPart Site.services
        Site.putServices)
      (fun stage => (events, .verdict token stage next))
      (fun answer => (events ++ [.introspection token answer], .planned (next answer))) site
  | .settings caller tenantId cancelled stage next, site =>
    Recall.advance
      ((Backing.onSettings (stage.step tenantId (w.askSettings caller tenantId cancelled))).onPart
        Site.services Site.putServices)
      (fun stage => (events, .settings caller tenantId cancelled stage next))
      (fun answer => (events ++ [.settings caller tenantId answer], .planned (next answer))) site

/-- The next step of a request. One that is for no operation is answered at once. -/
def Passage.step (w : Wiring ν) (registry : Registry (Handler (World (ν × List Exchange))))
    (p : Passage ν) (site : Shared ν) : Passage ν × Shared ν :=
  match p.place with
  | .elsewhere =>
    let (response, site) := Host.serve registry w.services p.took p.request site
    ({ p with place := .out response }, site)
  | .within _ (.planned (.done (.error response))) =>
    ({ p with place := .out (Host.finished p.request response) }, site)
  | .within handler (.planned (.done (.ok inbound))) =>
    let (response, site) := handler inbound site
    (⟨p.request, p.took, p.events ++ [.handling inbound],
      .out (Host.finished p.request response)⟩, site)
  | .within handler pursuit =>
    let ((events, pursuit), site) := pursuit.step w p.events site
    (⟨p.request, p.took, events, .within handler pursuit⟩, site)
  | .out _ => (p, site)

def Incoming.start (w : Wiring ν) (registry : Registry (Handler (World (ν × List Exchange))))
    (i : Incoming) : Passage ν :=
  match Host.operationFor? registry i.request with
  | none => ⟨i.request, i.took, [], .elsewhere⟩
  | some (mount, inbound) =>
    ⟨i.request, i.took, [],
      .within mount.handler (.planned (Plan.steps registry.table w.isValid i.took inbound))⟩

/-- Requests that are served side by side. Beside their steps the network changes, and what was
remembered may be forgotten. -/
def passages (w : Wiring ν) (registry : Registry (Handler (World (ν × List Exchange)))) :
    Work Incoming (Passage ν) (Shared ν) (Aside ν) where
  start := Incoming.start w registry
  step := Passage.step w registry
  outside
    | .network change, site =>
      site.putServices
        { site.services with
          network := (change site.services.network.1, site.services.network.2) }
    | .forget kept, site =>
      site.putServices
        { site.services with
          verdicts := site.services.verdicts.filter fun e => kept e.1
          settings := site.services.settings.filter fun e => kept e.1 }

namespace Wiring

def TellsVerdict (w : Wiring ν) (token : String) (verdict : Introspection) (x : Exchange) : Prop :=
  Introspects w.identity token verdict x

def TellsMemberships (w : Wiring ν) (caller : Caller) (userId : String) (user : User)
    (x : Exchange) : Prop :=
  w.endUsers.TellsOf User.format caller "users" userId "memberships" user x

/-- The organizations service has reported the tenant's settings, to whichever caller. -/
def TellsSettings (w : Wiring ν) (tenantId : String) (settings : Settings) (x : Exchange) : Prop :=
  ∃ caller, w.organizations.TellsOf Settings.format caller "organizations" tenantId "settings"
    settings x

/-- What was answered is what a service has told about the same thing. -/
def Backs (w : Wiring ν) (exchanges : List Exchange) : Event → Prop
  | .introspection token (.ok verdict) => ∃ x ∈ exchanges, w.TellsVerdict token verdict x
  | .memberships caller userId (.ok user) =>
    ∃ x ∈ exchanges, w.TellsMemberships caller userId user x
  | .settings _ tenantId (.ok settings) => ∃ x ∈ exchanges, w.TellsSettings tenantId settings x
  | _ => True

theorem Backs.mono {w : Wiring ν} {exchanges more : List Exchange} {event : Event}
    (backs : w.Backs exchanges event) (within : exchanges ⊆ more) : w.Backs more event := by
  cases event with
  | handling inbound => trivial
  | introspection token answer | memberships caller userId answer | settings caller t answer =>
    cases answer with
    | error f => trivial
    | ok a =>
      obtain ⟨x, among, told⟩ := backs
      exact ⟨x, within among, told⟩

structure Memory (w : Wiring ν) (world : World (ν × List Exchange)) : Prop where
  verdicts : Recall.Sourced w.TellsVerdict world.verdicts world.network.2
  settings : Recall.Sourced w.TellsSettings world.settings world.network.2

theorem honest_verdict (w : Wiring ν) (token : String) :
    Honest (w.TellsVerdict token) (w.askVerdict token) :=
  (honest_ask w.network w.identity token).imp fun _ _ => introspects_of_tells

theorem honest_memberships (w : Wiring ν) (caller : Caller) (userId : String) (cancelled : Bool) :
    Honest (w.TellsMemberships caller userId)
      (w.endUsers.getJson w.network.noting User.format caller (membershipsPlace userId) cancelled) :=
  (honest_getJson w.network w.endUsers User.format caller (membershipsPlace userId) cancelled).imp
    fun _ _ => Client.tellsOf_of_tells (by decide) (by decide)

theorem honest_settings (w : Wiring ν) (caller : Caller) (tenantId : String) (cancelled : Bool) :
    Honest (w.TellsSettings tenantId) (w.askSettings caller tenantId cancelled) :=
  (honest_getJson w.network w.organizations Settings.format caller (settingsPlace tenantId)
    cancelled).imp fun _ _ tells => ⟨caller, Client.tellsOf_of_tells (by decide) (by decide) tells⟩

end Wiring

def Pursuit.course : Pursuit → Course
  | planned course => course
  | verdict token _ next => .askVerdict token next
  | settings caller tenantId cancelled _ next => .askSettings caller tenantId cancelled next

def Pursuit.Sound (w : Wiring ν) (exchanges : List Exchange) : Pursuit → Prop
  | planned _ => True
  | verdict token stage _ => stage.Sound (w.TellsVerdict token) exchanges
  | settings _ tenantId _ stage _ => stage.Sound (w.TellsSettings tenantId) exchanges

structure UnderWay (w : Wiring ν) (course : Course) (exchanges : List Exchange)
    (events : List Event) (pursuit : Pursuit) : Prop where
  resumes : course.Resumes w.isValid events pursuit.course
  opens : pursuit.course.Open
  sound : pursuit.Sound w exchanges
  backed : ∀ x ∈ events, w.Backs exchanges x

section Steps

variable {w : Wiring ν} {course : Course} {site : Shared ν} {exchanges more : List Exchange}
  {events : List Event} {pursuit : Pursuit}

theorem Pursuit.Sound.mono (sound : pursuit.Sound w exchanges) (within : exchanges ⊆ more) :
    pursuit.Sound w more := by
  cases pursuit with
  | planned course => trivial
  | verdict token stage next => exact Recall.Sound.mono sound within
  | settings caller tenantId cancelled stage next => exact Recall.Sound.mono sound within

theorem backed_mono (backed : ∀ x ∈ events, w.Backs exchanges x) (within : exchanges ⊆ more) :
    ∀ x ∈ events, w.Backs more x := fun x among => (backed x among).mono within

theorem backed_snoc {event : Event} (backed : ∀ x ∈ events, w.Backs exchanges x)
    (within : exchanges ⊆ more) (last : w.Backs more event) :
    ∀ x ∈ events ++ [event], w.Backs more x :=
  List.forall_mem_append.mpr ⟨backed_mono backed within, List.forall_mem_singleton.mpr last⟩

theorem UnderWay.mono (underWay : UnderWay w course exchanges events pursuit)
    (within : exchanges ⊆ more) : UnderWay w course more events pursuit :=
  ⟨underWay.resumes, underWay.opens, underWay.sound.mono within,
    backed_mono underWay.backed within⟩

/-- What a step leaves: more exchanges, a memory of what was told, and the request under way. -/
structure Moves (w : Wiring ν) (course : Course) (site : Shared ν)
    (after : (List Event × Pursuit) × Shared ν) : Prop where
  grows : site.services.network.2 ⊆ after.2.services.network.2
  memory : w.Memory after.2.services
  underWay : UnderWay w course after.2.services.network.2 after.1.1 after.1.2

theorem moves_verdict {token : String} {stage : Recall Introspection}
    {next : Except Failure Introspection → Course} (memory : w.Memory site.services)
    (underWay : UnderWay w course site.services.network.2 events (.verdict token stage next)) :
    Moves w course site ((Pursuit.verdict token stage next).step w events site) := by
  obtain ⟨resumes, opens, sound, backed⟩ := underWay
  obtain ⟨grows, verdicts, sounds⟩ :=
    Recall.step_sound (w.honest_verdict token) memory.verdicts sound
  have settings := memory.settings.mono grows
  simp only [Pursuit.step, Recall.advance, Backing.onVerdicts, Call.onPart]
  generalize stage.step token (w.askVerdict token)
    (site.services.verdicts, site.services.network) = stepped at grows verdicts sounds settings
  obtain ⟨f | stage, verdicts', n⟩ := stepped
  · exact ⟨grows, ⟨verdicts, settings⟩, resumes.verdict _, opens _, trivial,
      backed_snoc backed grows trivial⟩
  · have told := sounds stage rfl
    cases stage with
    | known verdict =>
      exact ⟨grows, ⟨verdicts, settings⟩, resumes.verdict _, opens _, trivial,
        backed_snoc backed grows told⟩
    | look | ask | keep =>
      exact ⟨grows, ⟨verdicts, settings⟩, resumes, opens, told, backed_mono backed grows⟩

theorem moves_settings {caller : Caller} {tenantId : String} {cancelled : Bool}
    {stage : Recall Settings} {next : Except Failure Settings → Course}
    (memory : w.Memory site.services)
    (underWay : UnderWay w course site.services.network.2 events
      (.settings caller tenantId cancelled stage next)) :
    Moves w course site
      ((Pursuit.settings caller tenantId cancelled stage next).step w events site) := by
  obtain ⟨resumes, opens, sound, backed⟩ := underWay
  obtain ⟨grows, settings, sounds⟩ :=
    Recall.step_sound (w.honest_settings caller tenantId cancelled) memory.settings sound
  have verdicts := memory.verdicts.mono grows
  simp only [Pursuit.step, Recall.advance, Backing.onSettings, Call.onPart]
  generalize stage.step tenantId (w.askSettings caller tenantId cancelled)
    (site.services.settings, site.services.network) = stepped at grows settings sounds verdicts
  obtain ⟨f | stage, settings', n⟩ := stepped
  · exact ⟨grows, ⟨verdicts, settings⟩, resumes.settings _, opens _, trivial,
      backed_snoc backed grows trivial⟩
  · have told := sounds stage rfl
    cases stage with
    | known found =>
      exact ⟨grows, ⟨verdicts, settings⟩, resumes.settings _, opens _, trivial,
        backed_snoc backed grows told⟩
    | look | ask | keep =>
      exact ⟨grows, ⟨verdicts, settings⟩, resumes, opens, told, backed_mono backed grows⟩

theorem moves_memberships {caller : Caller} {userId : String} {cancelled : Bool}
    {next : Except Failure User → Course} (memory : w.Memory site.services)
    (underWay : UnderWay w course site.services.network.2 events
      (.planned (.askMemberships caller userId cancelled next))) :
    Moves w course site
      ((Pursuit.planned (.askMemberships caller userId cancelled next)).step w events site) := by
  obtain ⟨resumes, opens, _, backed⟩ := underWay
  obtain ⟨grows, told⟩ := w.honest_memberships caller userId cancelled site.services.network
  simp only [Pursuit.step, Wiring.services, servicesOf, Backing.memberships, Backing.onNetwork,
    Call.onPart, fetchMemberships]
  simp only [membershipsPlace] at grows told
  generalize w.endUsers.getJson w.network.noting User.format caller
    ["private", "users", userId, "memberships"] cancelled site.services.network = answered
      at grows told
  obtain ⟨f | user, n⟩ := answered
  · exact ⟨grows, ⟨memory.verdicts.mono grows, memory.settings.mono grows⟩,
      resumes.memberships _, opens _, trivial, backed_snoc backed grows trivial⟩
  · exact ⟨grows, ⟨memory.verdicts.mono grows, memory.settings.mono grows⟩,
      resumes.memberships _, opens _, trivial, backed_snoc backed grows (told user rfl)⟩

theorem step_moves (memory : w.Memory site.services)
    (underWay : UnderWay w course site.services.network.2 events pursuit) :
    Moves w course site (pursuit.step w events site) := by
  cases pursuit with
  | verdict token stage next => exact moves_verdict memory underWay
  | settings caller tenantId cancelled stage next => exact moves_settings memory underWay
  | planned course' =>
    have backed := underWay.backed
    cases course' with
    | done r => exact ⟨List.Subset.refl _, memory, underWay⟩
    | count c next =>
      exact ⟨List.Subset.refl _, memory, underWay.resumes.count, underWay.opens, trivial, backed⟩
    | observe l took next =>
      exact ⟨List.Subset.refl _, memory, underWay.resumes.observe, underWay.opens, trivial, backed⟩
    | askVerdict token next =>
      exact ⟨List.Subset.refl _, memory, underWay.resumes, underWay.opens, trivial, backed⟩
    | askMemberships caller userId cancelled next => exact moves_memberships memory underWay
    | askSettings caller tenantId cancelled next =>
      exact ⟨List.Subset.refl _, memory, underWay.resumes, underWay.opens, trivial, backed⟩
    | publish tenancy inbound next =>
      exact ⟨List.Subset.refl _, memory, underWay.resumes.publish, underWay.opens.2 _, trivial,
        backed⟩

end Steps

/-- The answer to a request is that of a host which serves it without a break and is told what was
told to the request; of one that is for no operation, that of the host itself, and nothing
happens. -/
structure ServedAlone (w : Wiring ν) (registry : Registry (Handler (World (ν × List Exchange))))
    (recalls : Registry (Handler (List Event))) (p : Passage ν) (response : Http.Response) :
    Prop where
  operation : ∀ found, Host.operationFor? registry p.request = some found →
    ∀ site : Site (List Event), site.services = p.events →
      (Host.serve recalls (recalled w.isValid) p.took p.request site).1 = response ∧
        servedEvents recalls (recalled w.isValid) p.took p.request site = p.events
  elsewhere : Host.operationFor? registry p.request = none →
    p.events = [] ∧ ∃ site, (Host.serve registry w.services p.took p.request site).1 = response

inductive Passage.Sound (w : Wiring ν)
    (registry : Registry (Handler (World (ν × List Exchange))))
    (recalls : Registry (Handler (List Event))) (exchanges : List Exchange) : Passage ν → Prop where
  | elsewhere {request : Http.Request} {took : Durations}
      (none : Host.operationFor? registry request = none) :
      Sound w registry recalls exchanges ⟨request, took, [], .elsewhere⟩
  | within {request : Http.Request} {took : Durations} {events : List Event}
      {mount : Mount (Handler (World (ν × List Exchange)))} {inbound : Inbound} {pursuit : Pursuit}
      (requested : Host.operationFor? registry request = some (mount, inbound))
      (underWay : UnderWay w (Plan.steps registry.table w.isValid took inbound) exchanges events
        pursuit) :
      Sound w registry recalls exchanges ⟨request, took, events, .within mount.handler pursuit⟩
  | out {request : Http.Request} {took : Durations} {events : List Event}
      {response : Http.Response} (backed : ∀ x ∈ events, w.Backs exchanges x)
      (alone : ServedAlone w registry recalls ⟨request, took, events, .out response⟩ response) :
      Sound w registry recalls exchanges ⟨request, took, events, .out response⟩

section Passages

variable {w : Wiring ν} {testing : Bool}
  {registry : Registry (Handler (World (ν × List Exchange)))}
  {recalls : Registry (Handler (List Event))} {site : Shared ν} {exchanges more : List Exchange}
  {p : Passage ν}

theorem Passage.Sound.mono (sound : p.Sound w registry recalls exchanges)
    (within : exchanges ⊆ more) : p.Sound w registry recalls more := by
  cases sound with
  | elsewhere none => exact .elsewhere none
  | within requested underWay => exact .within requested (underWay.mono within)
  | out backed alone => exact .out (backed_mono backed within) alone

theorem passage_start (i : Incoming) : (i.start w registry).Sound w registry recalls exchanges := by
  unfold Incoming.start
  split
  · rename_i none
    exact .elsewhere none
  · rename_i mount inbound requested
    obtain ⟨m, _, rfl, _⟩ := Host.operationFor?_inbound requested
    exact .within requested ⟨Plan.resumes_start _, Plan.open_steps _ _ _ rfl, trivial,
      fun _ among => absurd among List.not_mem_nil⟩

structure Leaves (w : Wiring ν) (registry : Registry (Handler (World (ν × List Exchange))))
    (recalls : Registry (Handler (List Event))) (site : Shared ν) (after : Passage ν × Shared ν) :
    Prop where
  grows : site.services.network.2 ⊆ after.2.services.network.2
  memory : w.Memory after.2.services
  sound : after.1.Sound w registry recalls after.2.services.network.2

theorem leaves_of_moves {request : Http.Request} {took : Durations}
    {mount : Mount (Handler (World (ν × List Exchange)))} {inbound : Inbound}
    {moved : (List Event × Pursuit) × Shared ν} {after : Passage ν × Shared ν}
    (requested : Host.operationFor? registry request = some (mount, inbound))
    (moves : Moves w (Plan.steps registry.table w.isValid took inbound) site moved)
    (stepped : after = (⟨request, took, moved.1.1, .within mount.handler moved.1.2⟩, moved.2)) :
    Leaves w registry recalls site after := by
  rw [stepped]
  exact ⟨moves.grows, moves.memory, .within requested moves.underWay⟩

section Registered

variable (registered : registeredOperations testing = .ok registry)
  (registered' : registeredOperations testing = .ok recalls)
include registered registered'

theorem servedAlone_of_answered {request : Http.Request} {took : Durations} {events : List Event}
    {mount : Mount (Handler (World (ν × List Exchange)))} {inbound : Inbound}
    {response : Http.Response}
    (requested : Host.operationFor? registry request = some (mount, inbound))
    (resumes : (Plan.steps registry.table w.isValid took inbound).Resumes w.isValid events
      (.done (.error response))) (place : Place ν) :
    ServedAlone w registry recalls ⟨request, took, events, place⟩
      (Host.finished request response) := by
  obtain ⟨tables, mount', requested', _⟩ := handled_alike registered registered' requested
  rw [← tables] at resumes
  refine ⟨fun _ _ site recorded => served_of_answered requested' resumes site recorded, ?_⟩
  intro none
  exact absurd (none.symm.trans requested) (by simp)

theorem servedAlone_of_handled {request : Http.Request} {took : Durations} {events : List Event}
    {mount : Mount (Handler (World (ν × List Exchange)))} {inbound handled : Inbound}
    (requested : Host.operationFor? registry request = some (mount, inbound))
    (resumes : (Plan.steps registry.table w.isValid took inbound).Resumes w.isValid events
      (.done (.ok handled))) (site : Shared ν) (place : Place ν) :
    ServedAlone w registry recalls ⟨request, took, events ++ [.handling handled], place⟩
      (Host.finished request (mount.handler handled site).1) := by
  obtain ⟨tables, mount', requested', answers⟩ := handled_alike registered registered' requested
  rw [← tables] at resumes
  constructor
  · intro _ _ site' recorded
    obtain ⟨⟨after, response⟩, happened⟩ := served_of_handled requested' resumes site' recorded
    exact ⟨by rw [response, answers handled site after], happened⟩
  · intro none
    exact absurd (none.symm.trans requested) (by simp)

/-- Every step of a request leaves more exchanges, a memory of what was told, and the request in
order. -/
theorem passage_step (memory : w.Memory site.services)
    (sound : p.Sound w registry recalls site.services.network.2) :
    Leaves w registry recalls site (p.step w registry site) := by
  cases sound with
  | @elsewhere request took none =>
    have untouched := Host.serve_elsewhere none w.services took site
    simp only [Passage.step, untouched]
    refine ⟨List.Subset.refl _, memory, .out (fun _ among => absurd among List.not_mem_nil) ?_⟩
    refine ⟨fun _ requested => absurd (none.symm.trans requested) (by simp), fun _ => ⟨rfl, ?_⟩⟩
    exact ⟨site, rfl⟩
  | @within request took events mount inbound pursuit requested underWay =>
    have moves := step_moves memory underWay
    cases pursuit with
    | verdict token stage next => exact leaves_of_moves requested moves rfl
    | settings caller tenantId cancelled stage next => exact leaves_of_moves requested moves rfl
    | planned course =>
      cases course with
      | done r =>
        cases r with
        | error response =>
          exact ⟨List.Subset.refl _, memory, .out underWay.backed
            (servedAlone_of_answered registered registered' requested underWay.resumes _)⟩
        | ok handled =>
          -- The handler runs on a site that others have changed since this request began. It leaves
          -- the site as it is, and its answer does not depend on it.
          have built : Built testing operations registry := Built.empty.registerAll registered
          obtain ⟨e, member, rfl, _⟩ := Host.operationOf_requested built requested
          have untouched : (e.mount.handler handled site).2 = site :=
            operations_leave_site e member handled site
          have alone := servedAlone_of_handled registered registered' requested underWay.resumes
            site (.out (Host.finished request (e.mount.handler handled site).1))
          simp only [Passage.step, untouched]
          exact ⟨List.Subset.refl _, memory,
            .out (backed_snoc underWay.backed (List.Subset.refl _) trivial) alone⟩
      | count | observe | askVerdict | askMemberships | askSettings | publish =>
        exact leaves_of_moves requested moves rfl
  | out backed alone => exact ⟨List.Subset.refl _, memory, .out backed alone⟩

theorem passages_keep : (passages w registry).Keeps (fun site => w.Memory site.services)
    fun site p => p.Sound w registry recalls site.services.network.2 := by
  refine ⟨fun i _ _ => passage_start i, ?_, ?_, ?_⟩
  · intro p site memory sound
    have left := passage_step registered registered' memory sound
    exact ⟨left.memory, left.sound⟩
  · intro p other site memory sound others
    exact others.mono (passage_step registered registered' memory sound).grows
  · intro aside site memory
    cases aside with
    | network change => exact ⟨⟨memory.verdicts, memory.settings⟩, fun p sound => sound⟩
    | forget kept =>
      exact ⟨⟨memory.verdicts.forget kept, memory.settings.forget kept⟩, fun p sound => sound⟩

end Registered

end Passages

end Gate

end TenantGate
