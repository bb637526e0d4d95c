import TenantGate.Proofs.FailedCalls
import TenantGate.Proofs.Passages

/-!
Requests that are served side by side are served as if each were alone. However the steps are mixed,
a request is answered as by a host that serves nothing else and is told what this request was told,
all of which is about the request itself, and it is answered after a few steps of its own. Alone it
goes the way of the host itself.
-/
namespace TenantGate

open Gate Api Net Auth Service

variable {ν : Type}

namespace Gate

def Passage.Answered (p : Passage ν) : Prop := ∃ response, p.place = .out response

section Alone

variable (w : Wiring ν) (registry : Registry (Handler (World (ν × List Exchange))))

theorem introspect_remembers (token : String) :
    w.services.introspect token =
      Backing.onVerdicts (remembered token (w.askVerdict token)) := by
  have asked : freshVerdict w.network.noting w.identity token = w.askVerdict token := by
    rw [freshVerdict, w.real]
    rfl
  simp only [Wiring.services, servicesOf, introspect_eq, asked]

def verdictsOf (site : Shared ν) : Cache Introspection × ν × List Exchange :=
  (site.services.verdicts, site.services.network)

def putVerdicts (kept : Cache Introspection × ν × List Exchange) (site : Shared ν) : Shared ν :=
  site.putServices { site.services with verdicts := kept.1, network := kept.2 }

def settingsOf (site : Shared ν) : Cache Settings × ν × List Exchange :=
  (site.services.settings, site.services.network)

def putSettings (kept : Cache Settings × ν × List Exchange) (site : Shared ν) : Shared ν :=
  site.putServices { site.services with settings := kept.1, network := kept.2 }

section Reaches

variable (request : Http.Request) (took : Durations)
  (handler : Handler (World (ν × List Exchange)))

def within (at' : List Event × Pursuit) : Passage ν :=
  ⟨request, took, at'.1, .within handler at'.2⟩

theorem verdict_advances (events : List Event) (token : String)
    (next : Except Failure Introspection → Course) (stage : Recall Introspection)
    (site : Shared ν) :
    (passages w registry).step
        (within request took handler (events, .verdict token stage next)) site =
      Recall.advance ((stage.step token (w.askVerdict token)).onPart verdictsOf putVerdicts)
        (fun stage => within request took handler (events, .verdict token stage next))
        (fun answer => within request took handler
          (events ++ [.introspection token answer], .planned (next answer))) site :=
  Recall.advance_map (within request took handler)
    ((stage.step token (w.askVerdict token)).onPart verdictsOf putVerdicts)
    (fun stage => (events, .verdict token stage next))
    (fun answer => (events ++ [Event.introspection token answer], .planned (next answer))) site

theorem settings_advances (events : List Event) (caller : Caller) (tenantId : String)
    (cancelled : Bool) (next : Except Failure Settings → Course) (stage : Recall Settings)
    (site : Shared ν) :
    (passages w registry).step
        (within request took handler (events, .settings caller tenantId cancelled stage next))
        site =
      Recall.advance ((stage.step tenantId (w.askSettings caller tenantId cancelled)).onPart
          settingsOf putSettings)
        (fun stage => within request took handler
          (events, .settings caller tenantId cancelled stage next))
        (fun answer => within request took handler
          (events ++ [.settings caller tenantId answer], .planned (next answer))) site :=
  Recall.advance_map (within request took handler)
    ((stage.step tenantId (w.askSettings caller tenantId cancelled)).onPart settingsOf putSettings)
    (fun stage => (events, .settings caller tenantId cancelled stage next))
    (fun answer => (events ++ [Event.settings caller tenantId answer], .planned (next answer))) site

theorem reaches_verdict (events : List Event) (token : String)
    (next : Except Failure Introspection → Course) (site : Shared ν) :
    let answered := (w.services.introspect token).onPart Site.services Site.putServices site
    (passages w registry).Reaches
      (within request took handler (events, .verdict token .look next), site)
      (within request took handler
        (events ++ [.introspection token answered.1], .planned (next answered.1)),
        answered.2) := by
  rw [introspect_remembers]
  exact Recall.reaches_remembered (passages w registry) verdictsOf putVerdicts (fun _ => rfl)
    (fun _ _ => rfl) (fun _ _ _ => rfl) token (w.askVerdict token)
    (verdict_advances w registry request took handler events token next) site

theorem reaches_settings (events : List Event) (caller : Caller) (tenantId : String)
    (cancelled : Bool) (next : Except Failure Settings → Course) (site : Shared ν) :
    let answered := (w.services.settings caller tenantId cancelled).onPart Site.services
      Site.putServices site
    (passages w registry).Reaches
      (within request took handler (events, .settings caller tenantId cancelled .look next), site)
      (within request took handler
        (events ++ [.settings caller tenantId answered.1], .planned (next answered.1)),
        answered.2) := by
  exact Recall.reaches_remembered (passages w registry) settingsOf putSettings (fun _ => rfl)
    (fun _ _ => rfl) (fun _ _ _ => rfl) tenantId (w.askSettings caller tenantId cancelled)
    (settings_advances w registry request took handler events caller tenantId cancelled next) site

/-- Alone, a request comes to the end of its course as if this was carried out without a break. -/
theorem reaches_done (course : Course) (n : Site (Noted (World (ν × List Exchange)))) :
    let ran := course.run w.services.noting n
    (passages w registry).Reaches
      (within request took handler (n.services.events, .planned course), n.forget)
      (within request took handler (ran.2.services.events, .planned (.done ran.1)),
        ran.2.forget) := by
  induction course generalizing n with
  | done r => exact .here _
  | count c next ih => exact .step (ih (n.count c))
  | observe l took next ih => exact .step (ih (n.observe l took))
  | askVerdict token next ih =>
    let asked := (w.services.noting.introspect token).onPart Site.services Site.putServices n
    exact .step ((reaches_verdict w registry request took handler _ token next n.forget).trans
      (ih asked.1 asked.2))
  | askMemberships caller userId cancelled next ih =>
    let asked := (w.services.noting.memberships caller userId cancelled).onPart Site.services
      Site.putServices n
    exact .step (ih asked.1 asked.2)
  | askSettings caller tenantId cancelled next ih =>
    let asked := (w.services.noting.settings caller tenantId cancelled).onPart Site.services
      Site.putServices n
    exact .step ((reaches_settings w registry request took handler _ caller tenantId cancelled next
      n.forget).trans (ih asked.1 asked.2))
  | publish tenancy inbound next ih => exact .step (ih _ n)

theorem answered_stays (p : Passage ν) (site : Shared ν) (answered : p.Answered) :
    ((passages w registry).step p site).1.Answered := by
  obtain ⟨request, took, events, place⟩ := p
  obtain ⟨response, rfl⟩ := answered
  exact ⟨response, rfl⟩

theorem endsIn_course (course : Course) {k : Nat} (few : course.Within k) (events : List Event) :
    (passages w registry).EndsIn Passage.Answered (4 * k + 1)
      (within request took handler (events, .planned course)) := by
  have stays := answered_stays w registry
  have later {p : Passage ν} {m m' : Nat} (next : ∀ site,
      (passages w registry).EndsIn Passage.Answered m ((passages w registry).step p site).1)
      (enough : m < m') : (passages w registry).EndsIn Passage.Answered m' p :=
    Work.EndsIn.mono stays (m := m + 1) next enough
  induction course generalizing k events with
  | done r =>
    refine later (m := 0) ?_ (by omega)
    intro site
    cases r <;> exact ⟨_, rfl⟩
  | count c next ih | observe l took next ih =>
    obtain ⟨positive, rest⟩ := few
    exact later (fun site => ih rest events) (by omega)
  | askMemberships caller userId cancelled next ih | publish tenancy inbound next ih =>
    obtain ⟨positive, rest⟩ := few
    exact later (fun site => ih _ (rest _) _) (by omega)
  | askVerdict token next ih =>
    -- One step starts the lookup, and at most three more bring the answer.
    obtain ⟨positive, rest⟩ := few
    refine later (fun site => ?_) (by omega : 4 * (k - 1) + 1 + 3 < 4 * k + 1)
    exact Recall.endsIn_look stays
      (verdict_advances w registry request took handler events token next)
      fun answer => ih answer (rest answer) _
  | askSettings caller tenantId cancelled next ih =>
    obtain ⟨positive, rest⟩ := few
    refine later (fun site => ?_) (by omega : 4 * (k - 1) + 1 + 3 < 4 * k + 1)
    exact Recall.endsIn_look stays
      (settings_advances w registry request took handler events caller tenantId cancelled next)
      fun answer => ih answer (rest answer) _

end Reaches

theorem served_by_steps (i : Incoming) (site : Shared ν) :
    let served := Host.serve registry w.services i.took i.request site
    (passages w registry).Reaches (i.start w registry, site)
      (⟨i.request, i.took, servedEvents registry w.services i.took i.request site,
        .out served.1⟩, served.2) := by
  unfold Incoming.start
  split
  · rename_i none
    rw [servedEvents_elsewhere none]
    exact .step (.here _)
  · rename_i mount inbound requested
    obtain ⟨served, happened⟩ := served_operation requested w.services i.took site
    rw [served, happened]
    have reaches := reaches_done w registry i.request i.took mount.handler
      (Plan.steps registry.table w.isValid i.took inbound) site.noting
    have steps : (Plan.steps registry.table w.isValid i.took inbound).run w.services.noting =
        Step.all registry.table w.services.noting i.took inbound :=
      Plan.run_steps w.services.noting i.took registry.table inbound
    rw [steps] at reaches
    simp only [Step.layer]
    rcases went : Step.all registry.table w.services.noting i.took inbound site.noting with
      ⟨response | handled, n⟩
    · rw [went] at reaches
      exact reaches.trans (.step (.here _))
    · rw [went] at reaches
      exact reaches.trans (.step (.here _))

/-- Fourteen steps of a course, each in four at most, and the answer. -/
def mostSteps : Nat := 4 * 14 + 1

theorem endsIn_start (i : Incoming) :
    (passages w registry).EndsIn Passage.Answered mostSteps (i.start w registry) := by
  unfold Incoming.start
  split
  · have soon : (passages w registry).EndsIn Passage.Answered 1
        ⟨i.request, i.took, [], .elsewhere⟩ := fun site => ⟨_, rfl⟩
    exact soon.mono (answered_stays w registry) (by decide)
  · rename_i mount inbound _
    exact endsIn_course w registry i.request i.took mount.handler _
      (Plan.within_steps i.took registry.table w.isValid inbound) []

theorem passages_endIn : (passages w registry).Keeps (fun _ => True)
    fun _ p => (passages w registry).EndsIn Passage.Answered mostSteps p := by
  refine ⟨fun i _ _ => endsIn_start w registry i, ?_, fun _ _ _ _ _ ends => ends,
    fun _ _ _ => ⟨trivial, fun _ ends => ends⟩⟩
  intro p site _ ends
  exact ⟨trivial, Work.EndsIn.succ (answered_stays w registry) (ends site)⟩

end Alone

/-- The requests and what they share after some turns. At the start nothing is remembered, and
nothing has been sent. -/
def Wiring.floor (w : Wiring ν) (registry : Registry (Handler (World (ν × List Exchange))))
    (site : Site ν) (turns : List (Turn Incoming (Aside ν))) : Floor (Passage ν) (Shared ν) :=
  (passages w registry).run (site.withServices (.start (site.services, []))) turns

section Apart

variable {w : Wiring ν} {testing : Bool}
  {registry : Registry (Handler (World (ν × List Exchange)))}
  {recalls : Registry (Handler (List Event))} {p : Passage ν}

theorem step_incoming (p : Passage ν) (site : Shared ν) :
    ((p.step w registry site).1.request, (p.step w registry site).1.took) =
      (p.request, p.took) := by
  simp only [Passage.step]
  split <;> rfl

theorem backs_of_sound {exchanges : List Exchange} (sound : p.Sound w registry recalls exchanges) :
    ∀ x ∈ p.events, w.Backs exchanges x := by
  cases sound with
  | elsewhere none => exact fun _ among => absurd among List.not_mem_nil
  | within requested underWay => exact underWay.backed
  | out backed alone => exact backed

theorem published_of_sound {exchanges : List Exchange}
    (sound : p.Sound w registry recalls exchanges)
    {handler : Handler (World (ν × List Exchange))} {tenancy : Tenancy} {inbound : Inbound}
    {next : Except Failure Inbound → Course}
    (here : p.place = .within handler (.planned (.publish tenancy inbound next))) :
    publish tenancy inbound = .ok (inbound.withSlot ⟨some tenancy⟩) := by
  cases sound with
  | elsewhere none => exact absurd here (by simp)
  | out backed alone => exact absurd here (by simp)
  | within requested underWay =>
    obtain ⟨rfl, rfl⟩ := Place.within.inj here
    have unset : inbound.extensions.tenancy = none := underWay.opens.1
    simp only [publish, unset]
    rfl

theorem floor_sound (registered : registeredOperations testing = .ok registry)
    (registered' : registeredOperations testing = .ok recalls) (site : Site ν)
    (turns : List (Turn Incoming (Aside ν))) :
    Work.Holds (fun shared => w.Memory shared.services)
      (fun shared p => p.Sound w registry recalls shared.services.network.2)
      (w.floor registry site turns) := by
  apply (passages_keep registered registered').run
  exact ⟨fun _ _ held => absurd held (by simp [Site.withServices, World.start]),
    fun _ _ held => absurd held (by simp [Site.withServices, World.start])⟩

theorem floor_endsIn (site : Site ν) (turns : List (Turn Incoming (Aside ν))) :
    Work.Holds (fun _ => True)
      (fun _ p => (passages w registry).EndsIn Passage.Answered mostSteps p)
      (w.floor registry site turns) :=
  (passages_endIn w registry).run trivial turns

/-- All that a request was told is about itself, since it would be asked again if it were alone. -/
theorem own_of_servedAlone (registered : registeredOperations testing = .ok registry)
    (registered' : registeredOperations testing = .ok recalls) {response : Http.Response}
    (alone : ServedAlone w registry recalls p response)
    {mount : Mount (Handler (World (ν × List Exchange)))} {inbound : Inbound}
    (requested : Host.operationFor? registry p.request = some (mount, inbound)) :
    ∃ d, operationOf registry.table inbound = some d ∧
      ∀ x ∈ p.events, x.Own d inbound p.events := by
  -- What a request is told by itself is its own by `served_own`, and here it was told the same.
  obtain ⟨tables, mount', requested', _⟩ := handled_alike registered registered' requested
  obtain ⟨_, happened⟩ := alone.operation _ requested ⟨.zero, .start, "", p.events⟩ rfl
  obtain ⟨d, found, own⟩ := served_own (Built.empty.registerAll registered') (recalled w.isValid)
    p.took requested' ⟨.zero, .start, "", p.events⟩
  rw [happened] at own
  exact ⟨d, tables ▸ found, own⟩

end Apart

/-- However the turns are taken of the requests that a host serves, by services that may change
their answers in between: what a request was told, one of the services has told about just that. A
request that is answered gets the answer of a host that serves no other and is told the same; all
that it was told, and what its handler saw, is about itself. Its tenancy is published into a slot
that nothing has filled. No request is lost or mixed up with another, and each is answered after a
few steps of its own. Alone, its steps are those of the host. -/
theorem requests_are_served_apart (w : Wiring ν) {testing : Bool}
    {registry : Registry (Handler (World (ν × List Exchange)))}
    {recalls : Registry (Handler (List Event))}
    (registered : registeredOperations testing = .ok registry)
    (registered' : registeredOperations testing = .ok recalls) (site : Site ν)
    (turns : List (Turn Incoming (Aside ν))) :
    (∀ p ∈ (w.floor registry site turns).pieces,
      (∀ x ∈ p.events, w.Backs (w.floor registry site turns).shared.services.network.2 x) ∧
      (∀ response, p.place = .out response →
        ServedAlone w registry recalls p response ∧
        ∀ mount inbound, Host.operationFor? registry p.request = some (mount, inbound) →
          ∃ d, operationOf registry.table inbound = some d ∧
            ∀ x ∈ p.events, x.Own d inbound p.events) ∧
      ∀ handler tenancy inbound next,
        p.place = .within handler (.planned (.publish tenancy inbound next)) →
        publish tenancy inbound = .ok (inbound.withSlot ⟨some tenancy⟩)) ∧
    ((w.floor registry site turns).pieces.map fun p => (p.request, p.took)) =
      (turns.filterMap Turn.arrival?).map (fun i => (i.request, i.took)) ∧
    (∀ number p, (w.floor registry site turns).pieces[number]? = some p →
      ∀ more, mostSteps ≤ more.countP (Turn.isStep number) →
        ∃ p', (w.floor registry site (turns ++ more)).pieces[number]? = some p' ∧ p'.Answered) ∧
    ∀ (i : Incoming) (shared : Shared ν), ∃ steps,
      (passages w registry).run shared (.arrival i :: List.replicate steps (.step 0)) =
        ⟨[⟨i.request, i.took, servedEvents registry w.services i.took i.request shared,
          .out (Host.serve registry w.services i.took i.request shared).1⟩],
          (Host.serve registry w.services i.took i.request shared).2⟩ := by
  obtain ⟨_, sound⟩ := floor_sound registered registered' site turns
  refine ⟨?_, ?_, ?_, fun i shared => (served_by_steps w registry i shared).run⟩
  · intro p among
    refine ⟨backs_of_sound (sound p among), ?_, fun _ _ _ _ => published_of_sound (sound p among)⟩
    intro response answered
    have alone : ServedAlone w registry recalls p response := by
      cases sound p among with
      | elsewhere none => exact absurd answered (by simp)
      | within requested underWay => exact absurd answered (by simp)
      | out backed alone =>
        obtain rfl := Place.out.inj answered
        exact alone
    exact ⟨alone, fun mount inbound requested =>
      own_of_servedAlone registered registered' alone requested⟩
  · refine Work.pieces_of_run ?_ step_incoming _ turns
    intro i
    simp only [passages, Incoming.start]
    split <;> rfl
  · intro number p here more enough
    obtain ⟨_, ends⟩ := floor_endsIn site turns
    have reached := Work.EndsIn.turns (answered_stays w registry) here
      (ends p (List.mem_of_getElem? here)) more enough
    rw [Wiring.floor, Work.run, List.foldl_append]
    exact reached

/-- Services of which none gives the same answer twice: the settings show how many were given
before. -/
def countingNetwork : Network Nat := fun request n =>
  let told :=
    if request.url.host == some "users" then
      "\x7b\"id\":\"u1\",\"memberships\":[\x7b\"id\":\"m1\",\"userId\":\"u1\"," ++
        "\"organizationId\":\"org1\"\x7d]\x7d"
    else if request.url.host == some "organizations" then
      "\x7b\"round\":\x7b\"value\":\"" ++ toString n ++ "\"\x7d\x7d"
    else "\x7b\"active\":true,\"sub\":\"u1\"\x7d"
  (.answered .ok (Utf8.encode told), n + 1)

def countingWiring : Wiring Nat where
  network := countingNetwork
  endUsers := usersClient
  organizations := organizationsClient
  identity := localIdentity
  real := rfl
  isValid _ := true

/-- Two requests of one member for one tenant's settings, step by step in turn. -/
def inStep : List (Turn Incoming (Aside Nat)) :=
  .arrival ⟨memberVisit.request, .instant⟩ :: .arrival ⟨memberVisit.request, .instant⟩ ::
    (List.replicate mostSteps [.step 0, .step 1]).flatten

def steppedFloor : Floor (Passage Nat) (Shared Nat) :=
  countingWiring.floor productionRegistry ⟨.zero, .start, "", 0⟩ inStep

def Passage.body? (p : Passage ν) : Option String :=
  match p.place with
  | .out response => some response.body
  | _ => none

/-- Both requests miss both memories and are told different settings, and each is answered with
those that it was told itself. -/
theorem two_misses_are_kept_apart :
    registeredOperations false =
        .ok (productionRegistry : Registry (Handler (World (Nat × List Exchange)))) ∧
      registeredOperations false = .ok (productionRegistry : Registry (Handler (List Event))) ∧
      steppedFloor.shared.services.network.2.length = 6 ∧
      steppedFloor.pieces.map Passage.body? =
        [some "\x7b\"organizationId\":\"org1\",\"settings\":\x7b\"round\":\"4\"\x7d\x7d",
          some "\x7b\"organizationId\":\"org1\",\"settings\":\x7b\"round\":\"5\"\x7d\x7d"] ∧
      ∀ p ∈ steppedFloor.pieces, ∃ response, p.place = .out response ∧
        ServedAlone countingWiring productionRegistry productionRegistry p response := by
  obtain ⟨apart, _⟩ := requests_are_served_apart countingWiring productionRegistry_registered
    productionRegistry_registered ⟨.zero, .start, "", 0⟩ inStep
  have answered : (steppedFloor.pieces.all fun p => p.body?.isSome) = true := by decide +kernel
  refine ⟨rfl, rfl, by decide +kernel, by decide +kernel, ?_⟩
  intro p among
  obtain ⟨_, out, _⟩ := apart p among
  have shown := List.all_eq_true.mp answered p among
  cases here : p.place with
  | out response => exact ⟨response, rfl, (out response here).1⟩
  | _ => simp [Passage.body?, here] at shown

end Gate

end TenantGate
