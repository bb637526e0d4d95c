import Mathlib.Algebra.GroupWithZero.Nat
import TenantGate.Proofs.Checkpoints
import TenantGate.Proofs.Plans

/-!
What one request does to the metrics, whatever it is told. A request that is inspected is counted
once for the way it ends, or a lookup for it has failed; every lookup is counted and timed once, and
again when it fails. The steps of a plan are followed with a ledger of what has been counted, timed
and told so far.
-/
namespace TenantGate

open Gate Api Telemetry Auth

variable {α β : Type}

namespace Gate

structure Ledger where
  counted : List Counter
  timed : List Latency
  events : List Event

/-- A lookup that has failed, but not because the request was cancelled. -/
def Event.isBreakdown (x : Event) : Bool :=
  x.isLookup && (x.failure?.map fun f => !f.isCancelled).getD false

def outcomes : List Counter :=
  [.forwardedUntenanted, .tenanciesResolved, .rejectedMissingTenant, .rejectedInvalidTenant,
    .rejectedNotAMember, .cancelledRequests]

namespace Ledger

def empty : Ledger := ⟨[], [], []⟩

def count (c : Counter) (ledger : Ledger) : Ledger := { ledger with counted := ledger.counted ++ [c] }

def time (l : Latency) (ledger : Ledger) : Ledger := { ledger with timed := ledger.timed ++ [l] }

def note (x : Event) (ledger : Ledger) : Ledger := { ledger with events := ledger.events ++ [x] }

def number (ledger : Ledger) (c : Counter) : Nat := ledger.counted.count c

def timings (ledger : Ledger) (l : Latency) : Nat := ledger.timed.count l

def breakdowns (ledger : Ledger) : Nat := ledger.events.countP Event.isBreakdown

def ends (ledger : Ledger) : Nat := (outcomes.map ledger.number).sum

section Entries

variable (ledger : Ledger) (c d : Counter) (l k : Latency) (x : Event)

@[simp] theorem number_count : (ledger.count c).number d = ledger.number d + if c = d then 1 else 0 := by
  simp only [number, count, List.count_append, List.count_singleton, beq_iff_eq]

@[simp] theorem number_time : (ledger.time l).number d = ledger.number d := rfl

@[simp] theorem number_note : (ledger.note x).number d = ledger.number d := rfl

@[simp] theorem timings_count : (ledger.count c).timings k = ledger.timings k := rfl

@[simp] theorem timings_time : (ledger.time l).timings k = ledger.timings k + if l = k then 1 else 0 := by
  simp only [timings, time, List.count_append, List.count_singleton, beq_iff_eq]

@[simp] theorem timings_note : (ledger.note x).timings k = ledger.timings k := rfl

@[simp] theorem breakdowns_count : (ledger.count c).breakdowns = ledger.breakdowns := rfl

@[simp] theorem breakdowns_time : (ledger.time l).breakdowns = ledger.breakdowns := rfl

@[simp] theorem breakdowns_note :
    (ledger.note x).breakdowns = ledger.breakdowns + if x.isBreakdown then 1 else 0 := by
  simp only [breakdowns, note, List.countP_append, List.countP_singleton]

@[simp] theorem ends_count :
    (ledger.count c).ends = ledger.ends + if c ∈ outcomes then 1 else 0 := by
  simp only [ends, outcomes, List.map_cons, List.map_nil, List.sum_cons, List.sum_nil, number_count]
  cases c <;> simp <;> omega

@[simp] theorem ends_time : (ledger.time l).ends = ledger.ends := rfl

@[simp] theorem ends_note : (ledger.note x).ends = ledger.ends := rfl

@[simp] theorem events_count : (ledger.count c).events = ledger.events := rfl

@[simp] theorem events_time : (ledger.time l).events = ledger.events := rfl

@[simp] theorem events_note : (ledger.note x).events = ledger.events ++ [x] := rfl

end Entries

end Ledger

end Gate

namespace Plan

def Ends (P : α → Ledger → Prop) : Plan α → Ledger → Prop
  | done a, ledger => P a ledger
  | count c next, ledger => next.Ends P (ledger.count c)
  | observe l _ next, ledger => next.Ends P (ledger.time l)
  | askVerdict token next, ledger =>
    ∀ answer, (next answer).Ends P (ledger.note (.introspection token answer))
  | askMemberships caller userId _ next, ledger =>
    ∀ answer, (next answer).Ends P (ledger.note (.memberships caller userId answer))
  | askSettings caller tenantId _ next, ledger =>
    ∀ answer, (next answer).Ends P (ledger.note (.settings caller tenantId answer))
  | publish tenancy inbound next, ledger => (next (Gate.publish tenancy inbound)).Ends P ledger

theorem ends_bind {P : β → Ledger → Prop} {plan : Plan α} {f : α → Plan β} {ledger : Ledger}
    (ends : plan.Ends (fun a after => (f a).Ends P after) ledger) : (plan.bind f).Ends P ledger := by
  induction plan generalizing ledger with
  | done a => exact ends
  | count c next ih => exact ih ends
  | observe l took next ih => exact ih ends
  | askVerdict token next ih => exact fun answer => ih answer (ends answer)
  | askMemberships caller userId cancelled next ih => exact fun answer => ih answer (ends answer)
  | askSettings caller tenantId cancelled next ih => exact fun answer => ih answer (ends answer)
  | publish tenancy inbound next ih => exact ih _ ends

theorem ends_mono {P Q : α → Ledger → Prop} {plan : Plan α} {ledger : Ledger}
    (ends : plan.Ends P ledger) (weaker : ∀ a after, P a after → Q a after) :
    plan.Ends Q ledger := by
  induction plan generalizing ledger with
  | done a => exact weaker a ledger ends
  | count c next ih => exact ih ends
  | observe l took next ih => exact ih ends
  | askVerdict token next ih => exact fun answer => ih answer (ends answer)
  | askMemberships caller userId cancelled next ih => exact fun answer => ih answer (ends answer)
  | askSettings caller tenantId cancelled next ih => exact fun answer => ih answer (ends answer)
  | publish tenancy inbound next ih => exact ih _ ends

theorem ends_attempt {P : Except Failure β → Ledger → Prop} {first : Plan (Except Failure α)}
    {second : α → Plan (Except Failure β)} {ledger : Ledger}
    (ends : first.Ends (fun
      | .ok a, after => (second a).Ends P after
      | .error f, after => P (.error f) after) ledger) :
    (first.attempt second).Ends P ledger := by
  refine ends_bind (ends_mono ends ?_)
  intro result after held
  cases result with
  | ok a => exact held
  | error f => exact held

end Plan

namespace Gate

/-- A request is inspected, and how it ends has not been counted yet. So many tenancies are about to
be resolved for it, and it fails with the failure of a lookup, if one has failed. -/
structure Ledger.Pending (ledger : Ledger) (resolved : Nat) (failure : Option Failure) : Prop where
  inspected : ledger.number .requestsInspected = 1
  unended : ledger.ends = 0
  settings : ledger.number .settingsLookups = ledger.number .settingsLookupErrors + resolved
  memberships : ledger.number .membershipLookupErrors ≤ ledger.number .membershipLookups
  defaults : ledger.number .defaultTenanciesResolved ≤ resolved
  untimed : ledger.timings .resolution = 0
  membershipsTimed : ledger.timings .membership = ledger.number .membershipLookups
  settingsTimed : ledger.timings .settings = ledger.number .settingsLookups
  broken : ledger.breakdowns = if (failure.map fun f => !f.isCancelled).getD false then 1 else 0
  failed : ∀ x ∈ ledger.events, x.isLookup = true → x.failure? = none ∨ x.failure? = failure

structure Ledger.Balanced (ledger : Ledger) : Prop where
  outcomes : ledger.number .requestsInspected = ledger.ends + ledger.breakdowns
  settings : ledger.number .settingsLookups =
    ledger.number .settingsLookupErrors + ledger.number .tenanciesResolved
  memberships : ledger.number .membershipLookupErrors ≤ ledger.number .membershipLookups
  defaults : ledger.number .defaultTenanciesResolved ≤ ledger.number .tenanciesResolved
  resolution : ledger.timings .resolution = ledger.number .requestsInspected
  membershipsTimed : ledger.timings .membership = ledger.number .membershipLookups
  settingsTimed : ledger.timings .settings = ledger.number .settingsLookups

def failureOf : Except Failure α → Option Failure
  | .ok _ => none
  | .error f => some f

def resolvedBy : Except Failure Outcome → Nat
  | .ok (.forwardWith _) => 1
  | _ => 0

namespace Ledger.Pending

variable {ledger : Ledger} {x : Event}

theorem noted (pending : ledger.Pending 0 none) (answered : x.failure? = none) :
    ∀ y ∈ (ledger.events ++ [x]), y.isLookup = true → y.failure? = none ∨ y.failure? = none := by
  intro y among lookup
  rcases List.mem_append.mp among with before | last
  · exact pending.failed y before lookup
  · rw [List.mem_singleton.mp last]
    exact .inl answered

theorem noted_failure (pending : ledger.Pending 0 none) {f : Failure}
    (failed : x.failure? = some f) :
    ∀ y ∈ (ledger.events ++ [x]), y.isLookup = true →
      y.failure? = none ∨ y.failure? = some f := by
  intro y among lookup
  rcases List.mem_append.mp among with before | last
  · rcases pending.failed y before lookup with none | none <;> exact .inl none
  · rw [List.mem_singleton.mp last]
    exact .inr failed

theorem quiet (answered : x.failure? = none) : x.isBreakdown = false := by
  simp [Event.isBreakdown, answered]

theorem broken_lookup (lookup : x.isLookup = true) {f : Failure} (failed : x.failure? = some f) :
    x.isBreakdown = !f.isCancelled := by
  simp [Event.isBreakdown, lookup, failed]

theorem found_memberships (pending : ledger.Pending 0 none) (answered : x.failure? = none) :
    (((ledger.count .membershipLookups).note x).time .membership).Pending 0 none := by
  have fewer := pending.memberships
  constructor
  · simp [pending.inspected]
  · simp [pending.unended, outcomes]
  · simp [pending.settings]
  · simp
    omega
  · simp [pending.defaults]
  · simp [pending.untimed]
  · simp [pending.membershipsTimed]
  · simp [pending.settingsTimed]
  · simp [pending.broken, quiet answered]
  · exact pending.noted answered

theorem failed_memberships (pending : ledger.Pending 0 none) (lookup : x.isLookup = true)
    {f : Failure} (failed : x.failure? = some f) :
    ((((ledger.count .membershipLookups).note x).time .membership).count
      .membershipLookupErrors).Pending 0 (some f) := by
  have fewer := pending.memberships
  constructor
  · simp [pending.inspected]
  · simp [pending.unended, outcomes]
  · simp [pending.settings]
  · simp
    omega
  · simp [pending.defaults]
  · simp [pending.untimed]
  · simp [pending.membershipsTimed]
  · simp [pending.settingsTimed]
  · simp [pending.broken, broken_lookup lookup failed]
  · exact pending.noted_failure failed

theorem found_settings (pending : ledger.Pending 0 none) (answered : x.failure? = none) :
    (((ledger.count .settingsLookups).note x).time .settings).Pending 1 none := by
  have none' := pending.defaults
  constructor
  · simp [pending.inspected]
  · simp [pending.unended, outcomes]
  · simp [pending.settings]
  · simp [pending.memberships]
  · simp
    omega
  · simp [pending.untimed]
  · simp [pending.membershipsTimed]
  · simp [pending.settingsTimed]
  · simp [pending.broken, quiet answered]
  · exact pending.noted answered

theorem failed_settings (pending : ledger.Pending 0 none) (lookup : x.isLookup = true)
    {f : Failure} (failed : x.failure? = some f) :
    ((((ledger.count .settingsLookups).note x).time .settings).count
      .settingsLookupErrors).Pending 0 (some f) := by
  constructor
  · simp [pending.inspected]
  · simp [pending.unended, outcomes]
  · simp [pending.settings]
  · simp [pending.memberships]
  · simp [pending.defaults]
  · simp [pending.untimed]
  · simp [pending.membershipsTimed]
  · simp [pending.settingsTimed]
  · simp [pending.broken, broken_lookup lookup failed]
  · exact pending.noted_failure failed

theorem defaulted (pending : ledger.Pending 1 none)
    (first : ledger.number .defaultTenanciesResolved = 0) :
    (ledger.count .defaultTenanciesResolved).Pending 1 none := by
  constructor
  · simp [pending.inspected]
  · simp [pending.unended, outcomes]
  · simp [pending.settings]
  · simp [pending.memberships]
  · simp [first]
  · simp [pending.untimed]
  · simp [pending.membershipsTimed]
  · simp [pending.settingsTimed]
  · simp [pending.broken]
  · exact pending.failed

end Ledger.Pending

theorem Ledger.pending_of_inspected {ledger : Ledger} (fresh : ledger.counted = [])
    (untimed : ledger.timed = []) (lookups : ∀ x ∈ ledger.events, x.isLookup = false) :
    (ledger.count .requestsInspected).Pending 0 none := by
  have number (c : Counter) : ledger.number c = 0 := by
    rw [Ledger.number, fresh]
    rfl
  have timings (l : Latency) : ledger.timings l = 0 := by
    rw [Ledger.timings, untimed]
    rfl
  have unbroken : ledger.breakdowns = 0 := by
    rw [Ledger.breakdowns, List.countP_eq_zero]
    intro x among broken
    simp [Event.isBreakdown, lookups x among] at broken
  constructor
  · simp [number]
  · simp [Ledger.ends, outcomes, number]
  · simp [number]
  · simp [number]
  · simp [number]
  · simp [timings]
  · simp [timings, number]
  · simp [timings, number]
  · simp [unbroken]
  · intro x among lookup
    exact absurd (lookups x among) (by simp [lookup])

theorem Ledger.number_of_unended {ledger : Ledger} (unended : ledger.ends = 0) {c : Counter}
    (member : c ∈ outcomes) : ledger.number c = 0 := by
  simp only [Ledger.ends, outcomes, List.map_cons, List.map_nil, List.sum_cons,
    List.sum_nil] at unended
  simp only [outcomes, List.mem_cons, List.not_mem_nil, or_false] at member
  rcases member with rfl | rfl | rfl | rfl | rfl | rfl <;> omega

theorem Ledger.Pending.balanced {ledger : Ledger} {resolved : Nat} {failure : Option Failure}
    (pending : ledger.Pending resolved failure) (unbroken : ledger.breakdowns = 0) {c : Counter}
    (member : c ∈ outcomes) (due : resolved = if c = .tenanciesResolved then 1 else 0) :
    ((ledger.time .resolution).count c).Balanced := by
  have unresolved : ledger.number .tenanciesResolved = 0 :=
    number_of_unended pending.unended (by decide)
  have fewer := pending.memberships
  have defaults := pending.defaults
  simp only [outcomes, List.mem_cons, List.not_mem_nil, or_false] at member
  have kinds : ∀ d : Counter, d ∈ [.requestsInspected, .defaultTenanciesResolved,
      .membershipLookups, .membershipLookupErrors, .settingsLookups, .settingsLookupErrors] →
      c ≠ d := by
    rcases member with rfl | rfl | rfl | rfl | rfl | rfl <;> decide
  have other : ∀ d : Counter, d ∈ [.requestsInspected, .defaultTenanciesResolved,
      .membershipLookups, .membershipLookupErrors, .settingsLookups, .settingsLookupErrors] →
      ((ledger.time .resolution).count c).number d = ledger.number d := by
    intro d among
    simp [kinds d among]
  have ended : ((ledger.time .resolution).count c).ends = 1 := by
    rw [ends_count, if_pos (by simpa [outcomes] using member), ends_time, pending.unended]
  constructor
  · rw [other _ (by decide), ended, pending.inspected]
    simp [unbroken]
  · rw [other _ (by decide), other _ (by decide), pending.settings, due]
    simp [unresolved]
  · rw [other _ (by decide), other _ (by decide)]
    exact fewer
  · rw [other _ (by decide)]
    simpa [unresolved, ← due] using defaults
  · rw [other _ (by decide), pending.inspected]
    simp [pending.untimed]
  · rw [other _ (by decide)]
    simp [pending.membershipsTimed]
  · rw [other _ (by decide)]
    simp [pending.settingsTimed]

theorem Ledger.Pending.balanced_broken {ledger : Ledger} {f : Failure}
    (pending : ledger.Pending 0 (some f)) (broken : f.isCancelled = false) :
    (ledger.time .resolution).Balanced := by
  have unresolved : ledger.number .tenanciesResolved = 0 :=
    number_of_unended pending.unended (by decide)
  have one : ledger.breakdowns = 1 := by simp [pending.broken, broken]
  constructor
  · simp [pending.inspected, pending.unended, one]
  · simp [pending.settings, unresolved]
  · simp [pending.memberships]
  · simpa [unresolved] using pending.defaults
  · simp [pending.untimed, pending.inspected]
  · simp [pending.membershipsTimed]
  · simp [pending.settingsTimed]

/-- What an inspected request is answered with if a lookup has failed for it. -/
def Ledger.ShowsFailure (ledger : Ledger) (result : Except Http.Response Inbound) : Prop :=
  ∀ x ∈ ledger.events, x.isLookup = true → ∀ f, x.failure? = some f →
    result = .error (Problem.ofFailure f).respond

end Gate

namespace Plan

variable {ledger : Ledger} (took : Durations)

theorem ends_memberships (pending : ledger.Pending 0 none) (caller : Caller) (id : String)
    (cancelled : Bool) :
    (memberships took caller id cancelled).Ends
      (fun answer after => after.Pending 0 (failureOf answer)) ledger := by
  intro answer
  cases answer with
  | ok user => exact pending.found_memberships rfl
  | error f => exact pending.failed_memberships rfl rfl

theorem ends_hydrate (pending : ledger.Pending 0 none) (caller : Caller) (tenantId : String)
    (cancelled : Bool) :
    (hydrate took caller tenantId cancelled).Ends
      (fun result after => after.Pending (resolvedBy result) (failureOf result) ∧
        after.number .defaultTenanciesResolved = 0 ∧
        ∀ outcome, result = .ok outcome → ∃ tenancy, outcome = .forwardWith tenancy) ledger := by
  have first : ledger.number .defaultTenanciesResolved = 0 := Nat.le_zero.mp pending.defaults
  intro answer
  cases answer with
  | ok settings =>
    exact ⟨pending.found_settings rfl, by simp [first],
      fun outcome same => ⟨_, (Except.ok.inj same).symm⟩⟩
  | error f => exact ⟨pending.failed_settings rfl rfl, by simp [first], fun _ same => nomatch same⟩

theorem ends_default (pending : ledger.Pending 0 none) (caller : Caller) (user : User)
    (cancelled : Bool) :
    (resolveDefault took caller user cancelled).Ends
      (fun result after => after.Pending (resolvedBy result) (failureOf result)) ledger := by
  unfold resolveDefault
  split
  · refine ends_attempt (ends_mono (ends_hydrate took pending _ _ _) ?_)
    rintro (f | outcome) after ⟨held, first, forwarded⟩
    · exact held
    · obtain ⟨tenancy, rfl⟩ := forwarded outcome rfl
      exact held.defaulted first
  · exact pending

theorem ends_resolve (pending : ledger.Pending 0 none) (isValid : String → Bool) (caller : Caller)
    (detection : Detection) (cancelled : Bool) :
    (resolve isValid took caller detection cancelled).Ends
      (fun result after => after.Pending (resolvedBy result) (failureOf result)) ledger := by
  have hydrated (caller : Caller) (tenantId : String) {ledger : Ledger}
      (pending : ledger.Pending 0 none) :
      (hydrate took caller tenantId cancelled).Ends
        (fun result after => after.Pending (resolvedBy result) (failureOf result)) ledger :=
    ends_mono (ends_hydrate took pending _ _ _) fun _ _ held => held.1
  cases caller with
  | anonymous =>
    simp only [resolve, resolveAnonymous]
    split
    · split <;> exact pending
    · split
      · exact hydrated _ _ pending
      · exact pending
  | authenticated id =>
    simp only [resolve, resolveAuthenticated]
    split
    · split
      · refine ends_attempt (ends_mono (ends_memberships took pending _ _ _) ?_)
        rintro (f | user) after held
        · exact held
        · simp only
          split
          · exact hydrated _ _ held
          · exact held
      · exact pending
    · split
      · refine ends_attempt (ends_mono (ends_memberships took pending _ _ _) ?_)
        rintro (f | user) after held
        · exact held
        · exact ends_default took held _ _ _
      · exact pending

/-- An inspected request is counted once for its end unless a lookup has failed, and is answered
with that failure otherwise. -/
def Completed (answer : Except Http.Response Inbound) (ledger : Ledger) : Prop :=
  ledger.Balanced ∧ ledger.number .requestsInspected = 1 ∧ ledger.ShowsFailure answer

theorem shows_nothing {resolved : Nat} (pending : ledger.Pending resolved none)
    (answer : Except Http.Response Inbound) : ledger.ShowsFailure answer := by
  intro x among lookup f failed
  rcases pending.failed x among lookup with none | none
  all_goals
    rw [none] at failed
    exact nomatch failed

theorem shows_failure {f : Failure} (pending : ledger.Pending 0 (some f)) :
    ledger.ShowsFailure (.error (Problem.ofFailure f).respond) := by
  intro x among lookup g failed
  rcases pending.failed x among lookup with none | shown
  · rw [none] at failed
    exact nomatch failed
  · rw [shown] at failed
    rw [Option.some.inj failed]

theorem ends_settle {inbound : Inbound} (unset : inbound.extensions.tenancy = none)
    {result : Except Failure Outcome}
    (pending : ledger.Pending (resolvedBy result) (failureOf result)) (took : UInt64) :
    (observe .resolution took (settle inbound result)).Ends Completed ledger := by
  cases result with
  | error f =>
    have shown : ledger.ShowsFailure (.error (Problem.ofFailure f).respond) :=
      shows_failure pending
    simp only [settle]
    split
    · rename_i cancelled
      refine ⟨pending.balanced ?_ (by decide) rfl, by simp [pending.inspected], shown⟩
      simp [pending.broken, failureOf, cancelled]
    · rename_i going
      exact ⟨pending.balanced_broken (by simpa using going), by simp [pending.inspected], shown⟩
  | ok outcome =>
    have unbroken : ledger.breakdowns = 0 := by simp [pending.broken, failureOf]
    cases outcome with
    | forward =>
      exact ⟨pending.balanced unbroken (by decide) rfl, by simp [pending.inspected],
        shows_nothing pending _⟩
    | reject rejection =>
      refine ⟨pending.balanced unbroken ?_ ?_, ?_, shows_nothing pending _⟩
      · cases rejection.code <;> decide
      · cases rejection.code <;> rfl
      · cases rejection.code <;> simp [rejectionCounter, pending.inspected]
    | forwardWith tenancy =>
      have filled : Gate.publish tenancy inbound = .ok (inbound.withSlot ⟨some tenancy⟩) := by
        simp only [Gate.publish, unset]
        rfl
      simp only [settle, Ends, filled]
      exact ⟨pending.balanced unbroken (by decide) rfl, by simp [pending.inspected],
        shows_nothing pending _⟩

/-- A request that is not inspected counts, times and looks up nothing. -/
def Untouched (ledger : Ledger) : Prop :=
  ledger.counted = [] ∧ ledger.timed = [] ∧ ∀ x ∈ ledger.events, x.isLookup = false

theorem ends_steps (table : RouteTable) (isValid : String → Bool) {inbound : Inbound}
    (unset : inbound.extensions.tenancy = none) :
    (steps table isValid took inbound).Ends
      (fun answer after => Untouched after ∨ Completed answer after) .empty := by
  refine ends_bind (ends_mono (P := fun _ after => Untouched after) ?_ ?_)
  · unfold caller
    split
    · exact ⟨rfl, rfl, fun _ among => absurd among List.not_mem_nil⟩
    · exact ⟨rfl, rfl, fun _ among => absurd among List.not_mem_nil⟩
    · intro answer
      refine ⟨rfl, rfl, ?_⟩
      intro x among
      rw [List.mem_singleton.mp among]
      rfl
  · intro found after untouched
    cases found with
    | error f => exact .inl untouched
    | ok caller =>
      simp only [admitted]
      split
      · exact .inl untouched
      · split
        · obtain ⟨uncounted, untimed, unasked⟩ := untouched
          have pending := Ledger.pending_of_inspected uncounted untimed unasked
          refine ends_bind (ends_mono (ends_resolve took pending isValid _ _ _) ?_)
          intro result after pending
          have unfilled : (inbound.withCaller caller).extensions.tenancy = none := unset
          exact ends_mono (ends_settle unfilled pending took.resolution) fun _ _ => .inr
        · exact .inl untouched

end Plan

end TenantGate
