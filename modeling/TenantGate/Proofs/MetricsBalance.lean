import TenantGate.Proofs.FailedCalls
import TenantGate.Proofs.Journeys
import TenantGate.Proofs.SettingsRoute
import TenantGate.Proofs.ShownMetrics

/-!
The metrics add up. Whatever requests a host has answered, in whatever order their steps were taken
and whatever its services told, the counters and the histograms that it shows fit together: every
inspected request ended in one of six ways that are counted, or a lookup for it has failed.
-/
namespace TenantGate.Gate

open Api Telemetry Http

variable {σ : Type}

def Journey.answer? (j : Journey σ) : Option Response :=
  match j.stop with
  | .out response => some response
  | _ => none

/-- A lookup for the request has failed, and not because the request was cancelled. -/
def Journey.BrokeDown (j : Journey σ) : Prop := ∃ x ∈ j.ledger.events, x.isBreakdown = true

instance (j : Journey σ) : Decidable j.BrokeDown :=
  inferInstanceAs (Decidable (∃ x ∈ j.ledger.events, x.isBreakdown = true))

/-- How often a request has ended in each of the seven ways in which an inspected request ends. -/
def Journey.endings (j : Journey σ) : List Nat :=
  outcomes.map j.ledger.number ++ [if j.BrokeDown then 1 else 0]

def broken (floor : Floor (Journey σ) (Site σ)) : List (Journey σ) :=
  floor.pieces.filter fun j => j.BrokeDown

/-- The counters and the histograms fit together when so many inspected requests have broken
down. -/
structure AddsUp (m : Metrics) (broken : Nat) : Prop where
  inspected : (m.get .requestsInspected).toNat =
    (m.get .forwardedUntenanted).toNat + (m.get .tenanciesResolved).toNat +
      (m.get .rejectedMissingTenant).toNat + (m.get .rejectedInvalidTenant).toNat +
      (m.get .rejectedNotAMember).toNat + (m.get .cancelledRequests).toNat + broken
  settings : (m.get .settingsLookups).toNat =
    (m.get .settingsLookupErrors).toNat + (m.get .tenanciesResolved).toNat
  memberships : (m.get .membershipLookupErrors).toNat ≤ (m.get .membershipLookups).toNat
  defaults : (m.get .defaultTenanciesResolved).toNat ≤ (m.get .tenanciesResolved).toNat
  resolutionTimed : (m.latency .resolution).count = m.get .requestsInspected
  membershipsTimed : (m.latency .membership).count = m.get .membershipLookups
  settingsTimed : (m.latency .settings).count = m.get .settingsLookups

/-- What one request that has been answered leaves behind. If it was inspected, it has ended in one
way, and if a lookup has failed for it, it is answered with that failure; otherwise it has counted
and timed nothing. -/
inductive Journey.Settled (j : Journey σ) : Prop where
  | uninspected (uncounted : j.ledger.counted = []) (untimed : j.ledger.timed = [])
      (whole : ¬ j.BrokeDown)
  | inspected (once : j.ledger.number .requestsInspected = 1)
      (one : ∃ i < 7, j.endings = (List.replicate 7 0).set i 1)
      (shown : j.BrokeDown → ∃ f : Failure, f.isCancelled = false ∧
        j.answer? = some (Host.finished j.request (Problem.ofFailure f).respond))

section Single

variable {j : Journey σ}

theorem brokeDown_iff : j.BrokeDown ↔ 0 < j.ledger.breakdowns := by
  rw [Ledger.breakdowns, List.countP_pos_iff]
  rfl

theorem breakdowns_of_few (few : j.ledger.breakdowns ≤ 1) :
    j.ledger.breakdowns = if j.BrokeDown then 1 else 0 := by
  by_cases down : j.BrokeDown
  · rw [if_pos down]
    have some := brokeDown_iff.mp down
    omega
  · rw [if_neg down]
    have none := mt brokeDown_iff.mpr down
    omega

theorem single_of_sum {ns : List Nat} (one : ns.sum = 1) :
    ∃ i < ns.length, ns = (List.replicate ns.length 0).set i 1 := by
  induction ns with
  | nil => exact absurd one (by simp)
  | cons n ns ih =>
    rw [List.sum_cons] at one
    cases n with
    | zero =>
      rw [Nat.zero_add] at one
      obtain ⟨i, bound, same⟩ := ih one
      refine ⟨i + 1, Nat.succ_lt_succ bound, ?_⟩
      rw [List.length_cons, List.replicate_succ, List.set_cons_succ, ← same]
    | succ n =>
      have rest : ns.sum = 0 := by omega
      have first : n = 0 := by omega
      have nothing : ns = List.replicate ns.length 0 :=
        List.eq_replicate_iff.mpr ⟨rfl, List.sum_eq_zero_iff_forall_eq_nat.mp rest⟩
      refine ⟨0, Nat.succ_pos _, ?_⟩
      rw [List.length_cons, List.replicate_succ, List.set_cons_zero, ← nothing, first]

theorem breakdowns_of_accounted {response : Response} (accounted : j.Accounted response) :
    j.ledger.breakdowns = if j.BrokeDown then 1 else 0 := by
  apply breakdowns_of_few
  rcases accounted with untouched | ⟨balanced, once, _⟩
  · have nothing := (Ledger.balanced_of_untouched untouched).outcomes
    have inspected : j.ledger.number .requestsInspected = 0 := by
      rw [Ledger.number, untouched.1]
      rfl
    omega
  · have outcome := balanced.outcomes
    omega

theorem settled_of_accounted {response : Response} (here : j.answer? = some response)
    (accounted : j.Accounted response) : j.Settled := by
  have few := breakdowns_of_accounted accounted
  rcases accounted with ⟨uncounted, untimed, unasked⟩ | ⟨balanced, once, shows⟩
  · refine .uninspected uncounted untimed ?_
    rintro ⟨x, among, down⟩
    simp [Event.isBreakdown, unasked x among] at down
  · have total : j.endings.sum = 1 := by
      rw [Journey.endings, List.sum_append_nat, List.sum_singleton, ← few]
      exact balanced.outcomes.symm.trans once
    refine .inspected once (single_of_sum total) ?_
    rintro ⟨x, among, down⟩
    simp only [Event.isBreakdown, Bool.and_eq_true] at down
    obtain ⟨lookup, failed⟩ := down
    cases failure : x.failure? with
    | none => exact absurd failed (by simp [failure])
    | some f =>
      refine ⟨f, by simpa [failure] using failed, ?_⟩
      rw [here, shows x among lookup f failure]

end Single

section Metrics

variable {testing : Bool} {registry : Registry (Handler σ)}

deriving instance DecidableEq for Router.Match

theorem matched?_metrics (registered : registeredOperations testing = .ok registry) :
    Host.matched? registry (Utf8.encode "/metrics") =
      some ⟨"/metrics", patternOf "/metrics", []⟩ := by
  rw [Host.matched?_eq, templates_registered registered]
  cases testing <;> decide +kernel

theorem serve_metrics (registered : registeredOperations testing = .ok registry)
    (services : Services σ) (took : Durations) {request : Request} (asks : request.method = .get)
    (path : request.uri.path = Utf8.encode "/metrics") (site : Site σ) :
    Host.serve registry services took request site =
      (Host.finished request (.json (snapshotText site.now site.metrics)), site) := by
  have built : Built testing operations registry := Built.empty.registerAll registered
  have unfiled : Host.mountFor? registry "/metrics" .get = none := by
    rw [Host.mountFor?, built.handlers]
    cases testing <;> rfl
  have other : request.method ≠ .options := by
    rw [asks]
    decide
  rw [Host.serve_dispatched registry services took other]
  simp only [Router.dispatch, Host.findTemplate_routes, path, matched?_metrics registered, asks,
    Host.routeAt_routes, unfiled]
  rfl

end Metrics

section Tour

variable {testing : Bool} {registry : Registry (Handler σ)} {services : Services σ}
  {floor : Floor (Journey σ) (Site σ)}

theorem breakdowns_tour (accounted : ∀ j ∈ floor.pieces, ∃ response, j.Accounted response) :
    (tourLedger floor).breakdowns = (broken floor).length := by
  rw [tourLedger, Ledger.breakdowns_join, List.map_map, broken, ← List.countP_eq_length_filter]
  generalize floor.pieces = pieces at accounted
  induction pieces with
  | nil => rfl
  | cons j pieces ih =>
    obtain ⟨response, own⟩ := accounted j List.mem_cons_self
    rw [List.map_cons, List.sum_cons, List.countP_cons,
      ih fun other among => accounted other (List.mem_cons_of_mem j among), Function.comp_apply,
      breakdowns_of_accounted own, Nat.add_comm]
    simp

theorem addsUp_of_balanced {m : Metrics} {ledger : Ledger} (balanced : ledger.Balanced)
    (counted : ∀ c, (m.get c).toNat = ledger.number c)
    (timed : ∀ l, (m.latency l).count = UInt64.ofNat (ledger.timings l)) :
    AddsUp m ledger.breakdowns := by
  have shown (c : Counter) : UInt64.ofNat (ledger.number c) = m.get c := by
    rw [← counted, UInt64.ofNat_toNat]
  constructor
  · rw [counted, balanced.outcomes]
    simp only [Ledger.ends, outcomes, List.map_cons, List.map_nil, List.sum_cons, List.sum_nil,
      counted]
    omega
  · rw [counted, counted, counted, balanced.settings]
  · rw [counted, counted]
    exact balanced.memberships
  · rw [counted, counted]
    exact balanced.defaults
  · rw [timed, balanced.resolution, shown]
  · rw [timed, balanced.membershipsTimed, shown]
  · rw [timed, balanced.settingsTimed, shown]

section Completed

variable (registered : registeredOperations testing = .ok registry) (services : Services σ)
  {site : Site σ} (turns : List (Turn Incoming (Meanwhile σ)))

theorem accounted_of_completed
    (completed : ∀ j ∈ (toured registry services site turns).pieces, j.answer?.isSome = true) :
    ∀ j ∈ (toured registry services site turns).pieces,
      ∃ response, j.answer? = some response ∧ j.Accounted response := by
  intro j among
  have sound : j.Sound registry := (journeys_keep.run trivial turns).2 j among
  have answered := completed j among
  cases sound with
  | elsewhere none => exact absurd answered (by simp [Journey.answer?])
  | within requested ends => exact absurd answered (by simp [Journey.answer?])
  | out here own => exact ⟨_, by rw [Journey.answer?, here], own⟩

theorem balanced_of_accounted
    (accounted : ∀ j ∈ floor.pieces, ∃ response, j.Accounted response) :
    (tourLedger floor).Balanced := by
  apply Ledger.balanced_join
  intro ledger among
  obtain ⟨j, piece, rfl⟩ := List.mem_map.mp among
  obtain ⟨_, untouched | ⟨own, _⟩⟩ := accounted j piece
  · exact Ledger.balanced_of_untouched untouched
  · exact own

include registered

theorem counted_of_tour (fresh : site.metrics = .zero) {c : Counter}
    (short : (tourLedger (toured registry services site turns)).number c < 2 ^ 64) :
    ((toured registry services site turns).shared.metrics.get c).toNat =
      (tourLedger (toured registry services site turns)).number c := by
  have total := (metrics_of_tour registered services site turns c .resolution).1
  have zero : site.metrics.get c = 0 := by
    rw [fresh]
    cases c <;> rfl
  rw [zero, UInt64.zero_add] at total
  rw [total, UInt64.toNat_ofNat']
  exact Nat.mod_eq_of_lt short

theorem timed_of_tour (fresh : site.metrics = .zero) (l : Latency) :
    ((toured registry services site turns).shared.metrics.latency l).count =
      UInt64.ofNat ((tourLedger (toured registry services site turns)).timings l) := by
  have total := (metrics_of_tour registered services site turns .requestsInspected l).2
  have zero : (site.metrics.latency l).count = 0 := by
    rw [fresh]
    cases l <;> rfl
  rwa [zero, UInt64.zero_add] at total

end Completed

/-- From fresh metrics on, when all requests have been answered and no counter has wrapped, the
metrics are what the requests have counted, they add up, and this is what the host shows; and each
request has ended in one way or was not inspected. Alone, a request takes the steps of the host. -/
theorem metrics_balance (registered : registeredOperations testing = .ok registry)
    (services : Services σ) {site : Site σ} (fresh : site.metrics = .zero)
    (turns : List (Turn Incoming (Meanwhile σ)))
    (completed : ∀ j ∈ (toured registry services site turns).pieces, j.answer?.isSome = true)
    (short : ∀ c, (tourLedger (toured registry services site turns)).number c < 2 ^ 64) :
    let floor := toured registry services site turns
    (∀ took request, request.method = .get → request.uri.path = Utf8.encode "/metrics" →
      Host.serve registry services took request floor.shared =
          (Host.finished request
            (.json (snapshotText floor.shared.now floor.shared.metrics)), floor.shared) ∧
        ShowsMetrics floor.shared.metrics
          (Host.serve registry services took request floor.shared).1) ∧
      AddsUp floor.shared.metrics (broken floor).length ∧
      (∀ c, (floor.shared.metrics.get c).toNat =
        (floor.pieces.map fun j => j.ledger.number c).sum) ∧
      (∀ j ∈ floor.pieces, j.Settled) ∧
      ∀ (i : Incoming) (shared : Site σ), ∃ (ledger : Ledger) (steps : Nat),
        ledger.events = servedEvents registry services i.took i.request shared ∧
        (journeys registry services).run shared (.arrival i :: List.replicate steps (.step 0)) =
          ⟨[⟨i.request, i.took, ledger, .out (Host.serve registry services i.took i.request shared).1⟩],
            (Host.serve registry services i.took i.request shared).2⟩ := by
  intro floor
  have accounted := accounted_of_completed services turns completed
  have every : ∀ j ∈ floor.pieces, ∃ response, j.Accounted response :=
    fun j among => (accounted j among).imp fun _ own => own.2
  have counted (c : Counter) := counted_of_tour registered services turns fresh (short c)
  refine ⟨?_, ?_, ?_, ?_, ?_⟩
  · intro took request asks path
    have served := serve_metrics registered services took asks path floor.shared
    refine ⟨served, ?_⟩
    rw [served]
    exact showsMetrics (by rw [asks]; decide) _ _
  · rw [← breakdowns_tour every]
    exact addsUp_of_balanced (balanced_of_accounted every) counted
      (timed_of_tour registered services turns fresh)
  · intro c
    rw [counted, tourLedger, Ledger.number_join, List.map_map]
    rfl
  · intro j among
    obtain ⟨response, here, own⟩ := accounted j among
    exact settled_of_accounted here own
  · intro i shared
    obtain ⟨ledger, told, reaches⟩ := journey_served registry services i shared
    obtain ⟨steps, ran⟩ := reaches.run
    exact ⟨ledger, steps, told, ran⟩

end Tour

/-- Services that tell everyone the memberships of a member as long as they can be reached. -/
def fickleServices : Services Bool where
  memberships _ c _ reached :=
    (if reached then .ok ⟨c, [⟨"m1", c, "org1", false⟩]⟩ else .error (.serviceUnavailable ""), reached)
  settings _ _ _ := .done .empty
  introspect token := .done (.ofSubject token)
  isValid _ := true

def reachedSite : Site Bool := ⟨.zero, .start, "", true⟩

/-- Two requests side by side. The services cannot be reached any more when the second one is
about to ask for memberships. -/
def twoVisits : List (Turn Incoming (Meanwhile Bool)) :=
  let visit : Incoming := ⟨memberVisit.request, .instant⟩
  [.arrival visit, .arrival visit, .step 1] ++ List.replicate 8 (.step 0) ++
    .outside (.services fun _ => false) :: (List.replicate 14 [.step 1, .step 0]).flatten

theorem member_and_failure_add_up :
    let floor := toured productionRegistry fickleServices reachedSite twoVisits
    (∀ j ∈ floor.pieces, j.answer?.isSome = true) ∧
      (∀ c, (tourLedger floor).number c < 2 ^ 64) ∧
      AddsUp floor.shared.metrics 1 ∧
      floor.pieces.map Journey.endings = [[0, 1, 0, 0, 0, 0, 0], [0, 0, 0, 0, 0, 0, 1]] := by
  intro floor
  have completed : ∀ j ∈ floor.pieces, j.answer?.isSome = true := by decide +kernel
  have short (c : Counter) : (tourLedger floor).number c < 2 ^ 64 := by
    have few : (tourLedger floor).counted.length < 2 ^ 64 := by decide +kernel
    exact Nat.lt_of_le_of_lt List.count_le_length few
  obtain ⟨_, addsUp, _⟩ :=
    metrics_balance productionRegistry_registered fickleServices rfl twoVisits completed short
  have one : (broken floor).length = 1 := by decide +kernel
  exact ⟨completed, short, one ▸ addsUp, by decide +kernel⟩

end TenantGate.Gate
