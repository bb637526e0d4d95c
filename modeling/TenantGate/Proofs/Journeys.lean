import TenantGate.Proofs.Ledgers
import TenantGate.Proofs.Passages

/-!
Requests on their way through a host with any services, each with a ledger of its own. They share
the site, take their steps in any order, and between the steps everything but the metrics may
change. What each request enters into its ledger it adds to the metrics, so the metrics are the sum
of the ledgers; and when a request has got its answer, its ledger adds up.
-/
namespace TenantGate.Gate

open Api Telemetry

variable {σ : Type}

inductive Stop (σ : Type) where
  | elsewhere
  | within (handler : Handler σ) (course : Course)
  | out (response : Http.Response)

structure Journey (σ : Type) where
  request : Http.Request
  took : Durations
  ledger : Ledger
  stop : Stop σ

inductive Meanwhile (σ : Type) where
  | services (change : σ → σ)
  | health (change : Health → Health)
  | clock (now : String)

def askedFor {α : Type} (call : Call σ α) : Call (Site σ) α :=
  call.onPart Site.services Site.putServices

/-- The next step of a request. A service answers in one step: whatever else happens until it does
is the same before, for the services may be in any state then. -/
def Journey.step (registry : Registry (Handler σ)) (services : Services σ) (j : Journey σ)
    (site : Site σ) : Journey σ × Site σ :=
  match j.stop with
  | .elsewhere =>
    let (response, site) := Host.serve registry services j.took j.request site
    (⟨j.request, j.took, j.ledger, .out response⟩, site)
  | .within _ (.done (.error response)) =>
    (⟨j.request, j.took, j.ledger, .out (Host.finished j.request response)⟩, site)
  | .within handler (.done (.ok inbound)) =>
    let (response, site) := handler inbound site
    (⟨j.request, j.took, j.ledger.note (.handling inbound),
      .out (Host.finished j.request response)⟩, site)
  | .within handler (.count c next) =>
    (⟨j.request, j.took, j.ledger.count c, .within handler next⟩, site.count c)
  | .within handler (.observe l took next) =>
    (⟨j.request, j.took, j.ledger.time l, .within handler next⟩, site.observe l took)
  | .within handler (.askVerdict token next) =>
    let (answer, site) := askedFor (services.introspect token) site
    (⟨j.request, j.took, j.ledger.note (.introspection token answer),
      .within handler (next answer)⟩, site)
  | .within handler (.askMemberships caller userId cancelled next) =>
    let (answer, site) := askedFor (services.memberships caller userId cancelled) site
    (⟨j.request, j.took, j.ledger.note (.memberships caller userId answer),
      .within handler (next answer)⟩, site)
  | .within handler (.askSettings caller tenantId cancelled next) =>
    let (answer, site) := askedFor (services.settings caller tenantId cancelled) site
    (⟨j.request, j.took, j.ledger.note (.settings caller tenantId answer),
      .within handler (next answer)⟩, site)
  | .within handler (.publish tenancy inbound next) =>
    (⟨j.request, j.took, j.ledger, .within handler (next (publish tenancy inbound))⟩, site)
  | .out _ => (j, site)

def Incoming.depart (registry : Registry (Handler σ)) (services : Services σ) (i : Incoming) :
    Journey σ :=
  match Host.operationFor? registry i.request with
  | none => ⟨i.request, i.took, .empty, .elsewhere⟩
  | some (mount, inbound) =>
    ⟨i.request, i.took, .empty,
      .within mount.handler (Plan.steps registry.table services.isValid i.took inbound)⟩

def journeys (registry : Registry (Handler σ)) (services : Services σ) :
    Work Incoming (Journey σ) (Site σ) (Meanwhile σ) where
  start := Incoming.depart registry services
  step := Journey.step registry services
  outside
    | .services change, site => site.putServices (change site.services)
    | .health change, site => { site with health := change site.health }
    | .clock now, site => { site with now }

/-- What is known about a request that has been answered: it was not inspected, and it left the
metrics alone, or it was, and its ledger adds up. -/
def Journey.Accounted (j : Journey σ) (response : Http.Response) : Prop :=
  Plan.Untouched j.ledger ∨
    j.ledger.Balanced ∧ j.ledger.number .requestsInspected = 1 ∧
      ∀ x ∈ j.ledger.events, x.isLookup = true → ∀ f, x.failure? = some f →
        response = Host.finished j.request (Problem.ofFailure f).respond

inductive Journey.Sound (registry : Registry (Handler σ)) : Journey σ → Prop where
  | elsewhere {request : Http.Request} {took : Durations}
      (none : Host.operationFor? registry request = none) :
      Sound registry ⟨request, took, .empty, .elsewhere⟩
  | within {request : Http.Request} {took : Durations} {ledger : Ledger}
      {mount : Mount (Handler σ)} {inbound : Inbound} {course : Course}
      (requested : Host.operationFor? registry request = some (mount, inbound))
      (ends : course.Ends
        (fun answer after => Plan.Untouched after ∨ Plan.Completed answer after) ledger) :
      Sound registry ⟨request, took, ledger, .within mount.handler course⟩
  | out {j : Journey σ} {response : Http.Response} (here : j.stop = .out response)
      (accounted : j.Accounted response) : Sound registry j

section Steps

variable {testing : Bool} {registry : Registry (Handler σ)} {services : Services σ}

theorem journey_depart (i : Incoming) : (i.depart registry services).Sound registry := by
  unfold Incoming.depart
  split
  · rename_i none
    exact .elsewhere none
  · rename_i mount inbound requested
    obtain ⟨m, _, rfl, _⟩ := Host.operationFor?_inbound requested
    exact .within requested (Plan.ends_steps _ _ _ rfl)

theorem handled_completed {ledger : Ledger} {inbound : Inbound}
    (completed : Plan.Completed (.ok inbound) ledger) :
    (ledger.note (.handling inbound)).Balanced ∧
      (ledger.note (.handling inbound)).number .requestsInspected = 1 ∧
      ∀ x ∈ (ledger.note (.handling inbound)).events, x.isLookup = true → x.failure? = none := by
  obtain ⟨balanced, inspected, shows⟩ := completed
  have unbroken : (ledger.note (.handling inbound)).breakdowns = ledger.breakdowns := by
    simp [Event.isBreakdown, Event.isLookup]
  refine ⟨⟨?_, balanced.settings, balanced.memberships, balanced.defaults, balanced.resolution,
    balanced.membershipsTimed, balanced.settingsTimed⟩, inspected, ?_⟩
  · rw [unbroken]
    exact balanced.outcomes
  · intro x among lookup
    rcases List.mem_append.mp among with before | last
    · cases failed : x.failure? with
      | none => rfl
      | some f => exact absurd (shows x before lookup f failed) (by simp)
    · rw [List.mem_singleton.mp last] at lookup
      exact absurd lookup (by simp [Event.isLookup])

theorem journey_step {j : Journey σ} (sound : j.Sound registry) (site : Site σ) :
    (j.step registry services site).1.Sound registry := by
  cases sound with
  | elsewhere none => exact .out rfl (.inl ⟨rfl, rfl, fun _ among => absurd among List.not_mem_nil⟩)
  | out here accounted =>
    simp only [Journey.step, here]
    exact .out here accounted
  | @within request took ledger mount inbound course requested ends =>
    cases course with
    | count c next => exact .within requested ends
    | observe l took next => exact .within requested ends
    | askVerdict token next => exact .within requested (ends _)
    | askMemberships caller userId cancelled next => exact .within requested (ends _)
    | askSettings caller tenantId cancelled next => exact .within requested (ends _)
    | publish tenancy inbound next => exact .within requested ends
    | done answer =>
      cases answer with
      | error response =>
        refine .out rfl ?_
        rcases ends with untouched | ⟨balanced, inspected, shows⟩
        · exact .inl untouched
        · refine .inr ⟨balanced, inspected, ?_⟩
          intro x among lookup f failed
          obtain rfl := Except.error.inj (shows x among lookup f failed)
          rfl
      | ok handled =>
        refine .out rfl ?_
        rcases ends with ⟨uncounted, untimed, unasked⟩ | completed
        · refine .inl ⟨uncounted, untimed, ?_⟩
          intro x among
          rcases List.mem_append.mp among with before | last
          · exact unasked x before
          · rw [List.mem_singleton.mp last]
            rfl
        · obtain ⟨balanced, inspected, answered⟩ := handled_completed completed
          refine .inr ⟨balanced, inspected, ?_⟩
          intro x among lookup f failed
          rw [answered x among lookup] at failed
          exact nomatch failed

theorem journeys_keep :
    (journeys registry services).Keeps (fun _ => True) fun _ j => j.Sound registry :=
  ⟨fun i _ _ => journey_depart i, fun _ site _ sound => ⟨trivial, journey_step sound site⟩,
    fun _ _ _ _ _ other => other, fun _ _ _ => ⟨trivial, fun _ own => own⟩⟩

theorem get_increment (m : Metrics) (c d : Counter) :
    (m.increment c).get d = m.get d + UInt64.ofNat (if c = d then 1 else 0) := by
  cases c <;> cases d <;> simp [Metrics.increment, Metrics.add, Metrics.get]

theorem latency_observe (m : Metrics) (value : UInt64) (l k : Latency) :
    ((m.observe value l).latency k).count =
      (m.latency k).count + UInt64.ofNat (if l = k then 1 else 0) := by
  cases l <;> cases k <;> simp [Metrics.observe, Metrics.latency, Histogram.observe]

theorem get_observe (m : Metrics) (value : UInt64) (l : Latency) (c : Counter) :
    (m.observe value l).get c = m.get c := by
  cases l <;> cases c <;> rfl

theorem latency_increment (m : Metrics) (c : Counter) (l : Latency) :
    ((m.increment c).latency l).count = (m.latency l).count := by
  cases c <;> cases l <;> rfl

theorem journey_adds (registered : registeredOperations testing = .ok registry) {j : Journey σ}
    (sound : j.Sound registry) (site : Site σ) (c : Counter) (l : Latency) :
    (∃ k, (j.step registry services site).1.ledger.number c = j.ledger.number c + k ∧
      (j.step registry services site).2.metrics.get c = site.metrics.get c + UInt64.ofNat k) ∧
    ∃ k, (j.step registry services site).1.ledger.timings l = j.ledger.timings l + k ∧
      ((j.step registry services site).2.metrics.latency l).count =
        (site.metrics.latency l).count + UInt64.ofNat k := by
  have nothing (after : Journey σ × Site σ) (number : after.1.ledger.number c = j.ledger.number c)
      (timings : after.1.ledger.timings l = j.ledger.timings l)
      (metrics : after.2.metrics = site.metrics) :
      (∃ k, after.1.ledger.number c = j.ledger.number c + k ∧
        after.2.metrics.get c = site.metrics.get c + UInt64.ofNat k) ∧
      ∃ k, after.1.ledger.timings l = j.ledger.timings l + k ∧
        (after.2.metrics.latency l).count = (site.metrics.latency l).count + UInt64.ofNat k := by
    rw [number, timings, metrics]
    exact ⟨⟨0, rfl, (UInt64.add_zero _).symm⟩, ⟨0, rfl, (UInt64.add_zero _).symm⟩⟩
  cases sound with
  | elsewhere none =>
    refine nothing _ rfl rfl ?_
    simp only [Journey.step]
    rw [Host.serve_elsewhere none]
  | out here accounted =>
    have stays : j.step registry services site = (j, site) := by
      simp only [Journey.step, here]
    rw [stays]
    exact nothing (j, site) rfl rfl rfl
  | @within request took ledger mount inbound course requested ends =>
    cases course with
    | count d next =>
      exact ⟨⟨_, ledger.number_count d c, get_increment site.metrics d c⟩,
        ⟨0, rfl, (latency_increment site.metrics d l).trans (UInt64.add_zero _).symm⟩⟩
    | observe k took' next =>
      exact ⟨⟨0, rfl, (get_observe site.metrics took' k c).trans (UInt64.add_zero _).symm⟩,
        ⟨_, ledger.timings_time k l, latency_observe site.metrics took' k l⟩⟩
    | askVerdict token next => exact nothing _ rfl rfl rfl
    | askMemberships caller userId cancelled next => exact nothing _ rfl rfl rfl
    | askSettings caller tenantId cancelled next => exact nothing _ rfl rfl rfl
    | publish tenancy inbound next => exact nothing _ rfl rfl rfl
    | done answer =>
      cases answer with
      | error response => exact nothing _ rfl rfl rfl
      | ok handled =>
        -- A handler of the host leaves the site, and so the metrics, as they are.
        have built : Built testing operations registry := Built.empty.registerAll registered
        obtain ⟨e, member, rfl, _⟩ := Host.operationOf_requested built requested
        refine nothing _ rfl rfl ?_
        exact congrArg Site.metrics (operations_leave_site e member handled site)

end Steps

section Alone

variable (registry : Registry (Handler σ)) (services : Services σ)

theorem note_told {ledger : Ledger} {events : List Event} (told : ledger.events = events)
    (x : Event) : (ledger.note x).events = events ++ [x] := by
  rw [Ledger.events_note, told]

/-- Alone, a request comes to the end of its course as if this was carried out without a break. -/
theorem journey_reaches_done (request : Http.Request) (took : Durations) (handler : Handler σ)
    (course : Course) {ledger : Ledger} {n : Site (Noted σ)}
    (told : ledger.events = n.services.events) :
    let ran := course.run services.noting n
    ∃ after : Ledger, after.events = ran.2.services.events ∧
      (journeys registry services).Reaches
        (⟨request, took, ledger, .within handler course⟩, n.forget)
        (⟨request, took, after, .within handler (.done ran.1)⟩, ran.2.forget) := by
  induction course generalizing ledger n with
  | done r => exact ⟨ledger, told, .here _⟩
  | count c next ih =>
    obtain ⟨after, same, reaches⟩ := @ih (ledger.count c) (n.count c) told
    exact ⟨after, same, .step reaches⟩
  | observe l took next ih =>
    obtain ⟨after, same, reaches⟩ := @ih (ledger.time l) (n.observe l took) told
    exact ⟨after, same, .step reaches⟩
  | askVerdict token next ih =>
    let asked := (services.noting.introspect token).onPart Site.services Site.putServices n
    obtain ⟨after, same, reaches⟩ := @ih asked.1 _ asked.2 (note_told told _)
    exact ⟨after, same, .step reaches⟩
  | askMemberships caller userId cancelled next ih =>
    let asked := (services.noting.memberships caller userId cancelled).onPart Site.services
      Site.putServices n
    obtain ⟨after, same, reaches⟩ := @ih asked.1 _ asked.2 (note_told told _)
    exact ⟨after, same, .step reaches⟩
  | askSettings caller tenantId cancelled next ih =>
    let asked := (services.noting.settings caller tenantId cancelled).onPart Site.services
      Site.putServices n
    obtain ⟨after, same, reaches⟩ := @ih asked.1 _ asked.2 (note_told told _)
    exact ⟨after, same, .step reaches⟩
  | publish tenancy inbound next ih =>
    obtain ⟨after, same, reaches⟩ := ih (publish tenancy inbound) told
    exact ⟨after, same, .step reaches⟩

theorem journey_served (i : Incoming) (site : Site σ) :
    let served := Host.serve registry services i.took i.request site
    ∃ ledger : Ledger,
      ledger.events = servedEvents registry services i.took i.request site ∧
      (journeys registry services).Reaches (i.depart registry services, site)
        (⟨i.request, i.took, ledger, .out served.1⟩, served.2) := by
  unfold Incoming.depart
  split
  · rename_i none
    rw [servedEvents_elsewhere none]
    exact ⟨.empty, rfl, .step (.here _)⟩
  · rename_i mount inbound requested
    obtain ⟨served, happened⟩ := served_operation requested services i.took site
    rw [served, happened]
    obtain ⟨ledger, told, reaches⟩ := journey_reaches_done registry services i.request i.took
      mount.handler (Plan.steps registry.table services.isValid i.took inbound)
      (show Ledger.empty.events = site.noting.services.events from rfl)
    have steps : (Plan.steps registry.table services.isValid i.took inbound).run services.noting =
        Step.all registry.table services.noting i.took inbound :=
      Plan.run_steps services.noting i.took registry.table inbound
    rw [steps] at reaches told
    simp only [Step.layer]
    rcases went : Step.all registry.table services.noting i.took inbound site.noting with
      ⟨response | handled, n⟩
    · rw [went] at reaches told
      exact ⟨ledger, told, reaches.trans (.step (.here _))⟩
    · rw [went] at reaches told
      exact ⟨ledger.note (.handling handled), note_told told _, reaches.trans (.step (.here _))⟩

end Alone

section Runs

variable {testing : Bool} {registry : Registry (Handler σ)} {services : Services σ}

def toured (registry : Registry (Handler σ)) (services : Services σ) (site : Site σ)
    (turns : List (Turn Incoming (Meanwhile σ))) : Floor (Journey σ) (Site σ) :=
  (journeys registry services).run site turns

def Ledger.join (ledgers : List Ledger) : Ledger :=
  ⟨ledgers.flatMap Ledger.counted, ledgers.flatMap Ledger.timed, ledgers.flatMap Ledger.events⟩

theorem Ledger.number_join (ledgers : List Ledger) (c : Counter) :
    (join ledgers).number c = (ledgers.map fun ledger => ledger.number c).sum :=
  List.count_flatMap

theorem Ledger.timings_join (ledgers : List Ledger) (l : Latency) :
    (join ledgers).timings l = (ledgers.map fun ledger => ledger.timings l).sum :=
  List.count_flatMap

theorem Ledger.breakdowns_join (ledgers : List Ledger) :
    (join ledgers).breakdowns = (ledgers.map Ledger.breakdowns).sum :=
  List.countP_flatMap

theorem Ledger.balanced_of_untouched {ledger : Ledger} (untouched : Plan.Untouched ledger) :
    ledger.Balanced := by
  obtain ⟨uncounted, untimed, unasked⟩ := untouched
  have number (c : Counter) : ledger.number c = 0 := by
    rw [Ledger.number, uncounted]
    rfl
  have timings (l : Latency) : ledger.timings l = 0 := by
    rw [Ledger.timings, untimed]
    rfl
  have unbroken : ledger.breakdowns = 0 := by
    rw [Ledger.breakdowns, List.countP_eq_zero]
    intro x among broken
    simp [Event.isBreakdown, unasked x among] at broken
  constructor <;> simp [number, timings, unbroken, Ledger.ends, outcomes]

theorem Ledger.balanced_join {ledgers : List Ledger} (each : ∀ ledger ∈ ledgers, ledger.Balanced) :
    (join ledgers).Balanced := by
  induction ledgers with
  | nil => exact balanced_of_untouched ⟨rfl, rfl, fun _ among => absurd among List.not_mem_nil⟩
  | cons ledger ledgers ih =>
    have first := each ledger List.mem_cons_self
    have rest := ih fun other among => each other (List.mem_cons_of_mem ledger among)
    have number (c : Counter) : (join (ledger :: ledgers)).number c =
        ledger.number c + (join ledgers).number c := by
      rw [number_join, number_join, List.map_cons, List.sum_cons]
    have timings (l : Latency) : (join (ledger :: ledgers)).timings l =
        ledger.timings l + (join ledgers).timings l := by
      rw [timings_join, timings_join, List.map_cons, List.sum_cons]
    have breakdowns : (join (ledger :: ledgers)).breakdowns =
        ledger.breakdowns + (join ledgers).breakdowns := by
      rw [breakdowns_join, breakdowns_join, List.map_cons, List.sum_cons]
    have ends : (join (ledger :: ledgers)).ends = ledger.ends + (join ledgers).ends := by
      simp only [Ledger.ends, outcomes, List.map_cons, List.map_nil, List.sum_cons, List.sum_nil,
        number]
      omega
    constructor
    · rw [number, ends, breakdowns, first.outcomes, rest.outcomes]
      omega
    · rw [number, number, number, first.settings, rest.settings]
      omega
    · rw [number, number]
      exact Nat.add_le_add first.memberships rest.memberships
    · rw [number, number]
      exact Nat.add_le_add first.defaults rest.defaults
    · rw [number, timings, first.resolution, rest.resolution]
    · rw [number, timings, first.membershipsTimed, rest.membershipsTimed]
    · rw [number, timings, first.settingsTimed, rest.settingsTimed]

def tourLedger (floor : Floor (Journey σ) (Site σ)) : Ledger :=
  .join (floor.pieces.map Journey.ledger)

theorem metrics_of_tour (registered : registeredOperations testing = .ok registry)
    (services : Services σ) (site : Site σ) (turns : List (Turn Incoming (Meanwhile σ)))
    (c : Counter) (l : Latency) :
    (toured registry services site turns).shared.metrics.get c =
        site.metrics.get c +
          UInt64.ofNat ((tourLedger (toured registry services site turns)).number c) ∧
      ((toured registry services site turns).shared.metrics.latency l).count =
        (site.metrics.latency l).count +
          UInt64.ofNat ((tourLedger (toured registry services site turns)).timings l) := by
  have departs (i : Incoming) : (i.depart registry services).ledger = .empty := by
    unfold Incoming.depart
    split <;> rfl
  have keeps : (journeys registry services).Keeps (fun _ => True) fun _ j => j.Sound registry :=
    journeys_keep
  rw [tourLedger, Ledger.number_join, Ledger.timings_join, List.map_map, List.map_map]
  constructor
  · refine keeps.total (fun j => j.ledger.number c) (fun site => site.metrics.get c) ?_ ?_ ?_
      trivial turns
    · intro i
      simp only [journeys, departs]
      rfl
    · intro j site _ sound
      exact (journey_adds registered sound site c l).1
    · intro e site
      cases e <;> rfl
  · refine keeps.total (fun j => j.ledger.timings l)
      (fun site => (site.metrics.latency l).count) ?_ ?_ ?_ trivial turns
    · intro i
      simp only [journeys, departs]
      rfl
    · intro j site _ sound
      exact (journey_adds registered sound site c l).2
    · intro e site
      cases e <;> rfl

end Runs

end TenantGate.Gate
