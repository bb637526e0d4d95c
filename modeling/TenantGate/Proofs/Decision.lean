import TenantGate.Proofs.Events

/-!
The tenancy decision as a table of rules: from the caller, what the request tells about its tenant
and what the two collaborators answer, to the calls that are made and to how the decision ends.
The resolver follows exactly these rules. Counting and timing are not part of them.
-/
namespace TenantGate

open Gate Telemetry

variable {σ : Type}

namespace User

def IsMember (user : User) (organizationId : String) : Prop :=
  ∃ m ∈ user.memberships, m.organizationId = organizationId

/-- The one membership of the user that is marked as default. -/
def SoleDefault (user : User) (m : Membership) : Prop :=
  m ∈ user.memberships ∧ m.isDefault = true ∧ user.memberships.countP (·.isDefault) = 1

theorem membershipOf_isSome_iff (user : User) (organizationId : String) :
    (user.membershipOf organizationId).isSome = true ↔ user.IsMember organizationId := by
  simp only [membershipOf, List.find?_isSome, beq_iff_eq, IsMember]

theorem soleDefault_iff (user : User) (m : Membership) :
    user.SoleDefault m ↔ user.defaultMemberships = [m] := by
  simp only [SoleDefault, defaultMemberships, List.countP_eq_length_filter]
  constructor
  · rintro ⟨member, marked, single⟩
    obtain ⟨other, only⟩ := List.length_eq_one_iff.mp single
    have found : m ∈ user.memberships.filter (·.isDefault) := List.mem_filter.mpr ⟨member, marked⟩
    rw [only, List.mem_singleton] at found
    rw [only, found]
  · intro only
    have found : m ∈ user.memberships.filter (·.isDefault) := by simp [only]
    obtain ⟨member, marked⟩ := List.mem_filter.mp found
    exact ⟨member, marked, by simp [only]⟩

end User

namespace Resolver

structure Answers where
  memberships : String → Except Failure User
  settings : String → Except Failure Settings

/-- How the decision for a tenant ends, given the answer about its settings. -/
def hydrated (tenantId : String) (answer : Except Failure Settings) : Except Failure Outcome :=
  answer.map fun settings => .forwardWith ⟨tenantId, settings⟩

/- One rule for each way through the decision. The calls stand in their order. -/
inductive Decides (isValid : String → Bool) (answers : Answers) :
    Caller → Detection → List Event → Except Failure Outcome → Prop where
  | anonymousMissing :
      Decides isValid answers .anonymous ⟨true, none⟩ [] (.ok (.reject .missingTenantId))
  | anonymousForward : Decides isValid answers .anonymous ⟨false, none⟩ [] (.ok .forward)
  | invalid (caller : Caller) (required : Bool) {t : String} (invalid : isValid t = false) :
      Decides isValid answers caller ⟨required, some t⟩ [] (.ok (.reject .invalidTenantId))
  | anonymousTenant (required : Bool) {t : String} (valid : isValid t = true) :
      Decides isValid answers .anonymous ⟨required, some t⟩
        [.settings .anonymous t (answers.settings t)] (hydrated t (answers.settings t))
  | member (required : Bool) {c t : String} {user : User} (valid : isValid t = true)
      (found : answers.memberships c = .ok user) (member : user.IsMember t) :
      Decides isValid answers (.authenticated c) ⟨required, some t⟩
        [.memberships (.authenticated c) c (.ok user),
          .settings (.authenticated c) t (answers.settings t)] (hydrated t (answers.settings t))
  | notMember (required : Bool) {c t : String} {user : User} (valid : isValid t = true)
      (found : answers.memberships c = .ok user) (stranger : ¬ user.IsMember t) :
      Decides isValid answers (.authenticated c) ⟨required, some t⟩
        [.memberships (.authenticated c) c (.ok user)] (.ok (.reject (.notAMember t)))
  | memberFailed (required : Bool) {c t : String} {f : Failure} (valid : isValid t = true)
      (failed : answers.memberships c = .error f) :
      Decides isValid answers (.authenticated c) ⟨required, some t⟩
        [.memberships (.authenticated c) c (.error f)] (.error f)
  | authenticatedForward (c : String) :
      Decides isValid answers (.authenticated c) ⟨false, none⟩ [] (.ok .forward)
  | soleDefault {c : String} {user : User} {m : Membership}
      (found : answers.memberships c = .ok user) (sole : user.SoleDefault m) :
      Decides isValid answers (.authenticated c) ⟨true, none⟩
        [.memberships (.authenticated c) c (.ok user),
          .settings (.authenticated c) m.organizationId (answers.settings m.organizationId)]
        (hydrated m.organizationId (answers.settings m.organizationId))
  | noSoleDefault {c : String} {user : User} (found : answers.memberships c = .ok user)
      (unclear : ∀ m, ¬ user.SoleDefault m) :
      Decides isValid answers (.authenticated c) ⟨true, none⟩
        [.memberships (.authenticated c) c (.ok user)] (.ok (.reject .missingTenantId))
  | defaultFailed {c : String} {f : Failure} (failed : answers.memberships c = .error f) :
      Decides isValid answers (.authenticated c) ⟨true, none⟩
        [.memberships (.authenticated c) c (.error f)] (.error f)

theorem decides_unique {isValid : String → Bool} {answers : Answers} {caller : Caller}
    {detection : Detection} {events events' : List Event} {result result' : Except Failure Outcome}
    (first : Decides isValid answers caller detection events result)
    (second : Decides isValid answers caller detection events' result') :
    events = events' ∧ result = result' := by
  cases first <;> cases second <;> simp_all [User.soleDefault_iff]

theorem hydrated_ne_forward (t : String) (answer : Except Failure Settings) :
    hydrated t answer ≠ .ok .forward := by
  cases answer <;> simp [hydrated, Except.map]

theorem tenant_of_hydrated {t : String} {answer : Except Failure Settings} {tenancy : Tenancy}
    (ends : hydrated t answer = .ok (.forwardWith tenancy)) : tenancy.tenantId = t := by
  cases answer with
  | error f => simp [hydrated, Except.map] at ends
  | ok settings =>
    simp only [hydrated, Except.map, Except.ok.injEq, Outcome.forwardWith.injEq] at ends
    rw [← ends]

theorem hydrated_eq_iff {t t' : String} {s : Settings} {answer : Except Failure Settings} :
    hydrated t' answer = .ok (.forwardWith ⟨t, s⟩) ↔ t' = t ∧ answer = .ok s := by
  cases answer with
  | error f => simp [hydrated, Except.map]
  | ok s' => simp [hydrated, Except.map]

theorem settings_of_forwardWith {isValid : String → Bool} {answers : Answers} {caller : Caller}
    {detection : Detection} {made : List Event} {result : Except Failure Outcome} {t : String}
    {s : Settings} (rule : Decides isValid answers caller detection made result)
    (ends : result = .ok (.forwardWith ⟨t, s⟩)) : .settings caller t (.ok s) ∈ made := by
  cases rule with
  | anonymousMissing | anonymousForward | invalid | authenticatedForward | notMember
  | noSoleDefault | memberFailed | defaultFailed => exact absurd ends (by simp)
  | anonymousTenant =>
    obtain ⟨rfl, answer⟩ := hydrated_eq_iff.mp ends
    rw [answer]
    exact List.mem_singleton_self _
  | member | soleDefault =>
    obtain ⟨rfl, answer⟩ := hydrated_eq_iff.mp ends
    rw [answer]
    exact List.mem_cons_of_mem _ (List.mem_singleton_self _)

theorem detection_of_forward {isValid : String → Bool} {answers : Answers} {caller : Caller}
    {detection : Detection} {events : List Event} {result : Except Failure Outcome}
    (rule : Decides isValid answers caller detection events result) (ends : result = .ok .forward) :
    detection = ⟨false, none⟩ := by
  cases rule with
  | anonymousForward => rfl
  | authenticatedForward => rfl
  | anonymousTenant => exact absurd ends (hydrated_ne_forward _ _)
  | member => exact absurd ends (hydrated_ne_forward _ _)
  | soleDefault => exact absurd ends (hydrated_ne_forward _ _)
  | _ => simp at ends

/-- The tenancy is that of a membership of the user: of the tenant that is named, or of the only
default where none is named. -/
def Granted (user : User) (detection : Detection) (tenancy : Tenancy) : Prop :=
  (∃ t, detection.tenantId = some t ∧ user.IsMember t ∧ tenancy.tenantId = t) ∨
    (detection.tenantId = none ∧ ∃ m, user.SoleDefault m ∧ tenancy.tenantId = m.organizationId)

theorem isMember_of_granted {user : User} {detection : Detection} {tenancy : Tenancy}
    (granted : Granted user detection tenancy) : user.IsMember tenancy.tenantId := by
  rcases granted with ⟨t, _, member, same⟩ | ⟨_, m, sole, same⟩
  · rw [same]
    exact member
  · exact ⟨m, sole.1, same.symm⟩

theorem granted_of_forwardWith {isValid : String → Bool} {answers : Answers} {c : String}
    {detection : Detection} {events : List Event} {result : Except Failure Outcome}
    {tenancy : Tenancy} (rule : Decides isValid answers (.authenticated c) detection events result)
    (ends : result = .ok (.forwardWith tenancy)) :
    ∃ user, answers.memberships c = .ok user ∧
      events.filter Event.isMemberships = [.memberships (.authenticated c) c (.ok user)] ∧
      Granted user detection tenancy := by
  cases rule with
  | member required valid found member =>
    exact ⟨_, found, rfl, .inl ⟨_, rfl, member, tenant_of_hydrated ends⟩⟩
  | soleDefault found sole =>
    exact ⟨_, found, rfl, .inr ⟨rfl, _, sole, tenant_of_hydrated ends⟩⟩
  | _ => simp at ends

theorem no_handling_of_decides {isValid : String → Bool} {answers : Answers} {caller : Caller}
    {detection : Detection} {events : List Event} {result : Except Failure Outcome}
    (rule : Decides isValid answers caller detection events result) :
    events.filter Event.isHandling = [] := by
  cases rule <;> rfl

/-- The state in which settings are looked up: a user's memberships have been looked up before. -/
def beforeSettings (services : Collaborators σ) (caller : Caller) (cancelled : Bool) (s : σ) : σ :=
  match caller with
  | .anonymous => s
  | .authenticated c => (services.memberships caller c cancelled s).2

def answersOf (services : Collaborators σ) (caller : Caller) (cancelled : Bool) (s : σ) :
    Answers where
  memberships id := (services.memberships caller id cancelled s).1
  settings t := (services.settings caller t cancelled (beforeSettings services caller cancelled s)).1

theorem measured_answer {α : Type} (lookups errors : Counter) (latency : Latency) (took : UInt64)
    (lookup : Call σ α) (site : Site σ) :
    (measured lookups errors latency took lookup site).1 = (lookup site.services).1 := by
  simp only [measured, Call.onPart, Site.count]
  cases (lookup site.services).1 <;> rfl

theorem measured_services {α : Type} (lookups errors : Counter) (latency : Latency) (took : UInt64)
    (lookup : Call σ α) (site : Site σ) :
    (measured lookups errors latency took lookup site).2.services = (lookup site.services).2 := by
  simp only [measured, Call.onPart, Site.count]
  cases (lookup site.services).1 <;> rfl

variable (services : Collaborators σ) (took : Durations) (caller : Caller) (cancelled : Bool)
  (site : Site (Noted σ))

theorem memberships_failed {id : String} {f : Failure}
    (looked : (services.memberships caller id cancelled site.services.state).1 = .error f)
    (next : User → Call (Site (Noted σ)) Outcome) :
    ∃ after, (memberships services.noting took caller id cancelled >>= next) site =
        (.error f, after) ∧
      after.services.events = site.services.events ++ [.memberships caller id (.error f)] := by
  have answer : (memberships services.noting took caller id cancelled site).1 = .error f :=
    (measured_answer _ _ _ _ _ _).trans looked
  refine ⟨_, Call.bind_of_error next answer, ?_⟩
  rw [memberships, measured_services, ← looked]
  rfl

theorem memberships_found {id : String} {user : User}
    (looked : (services.memberships caller id cancelled site.services.state).1 = .ok user)
    (next : User → Call (Site (Noted σ)) Outcome) :
    ∃ after, (memberships services.noting took caller id cancelled >>= next) site =
        next user after ∧
      after.services = ⟨(services.memberships caller id cancelled site.services.state).2,
        site.services.events ++ [.memberships caller id (.ok user)]⟩ := by
  have answer : (memberships services.noting took caller id cancelled site).1 = .ok user :=
    (measured_answer _ _ _ _ _ _).trans looked
  refine ⟨_, Call.bind_of_ok next answer, (measured_services _ _ _ _ _ _).trans ?_⟩
  rw [← looked]
  rfl

theorem hydrate_answer (t : String) :
    (hydrate services.noting took caller t cancelled site).1 =
      hydrated t (services.settings caller t cancelled site.services.state).1 := by
  rw [hydrate, Call.bind_pure_apply, measured_answer]
  rfl

theorem hydrate_noted (t : String) :
    (hydrate services.noting took caller t cancelled site).2.services.events =
      site.services.events ++
        [.settings caller t (services.settings caller t cancelled site.services.state).1] := by
  rw [hydrate, Call.bind_pure_apply, measured_services]
  rfl

omit site in
theorem resolveDefault_sole {user : User} {m : Membership} (sole : user.SoleDefault m)
    (site : Site σ) :
    (resolveDefault services took caller user cancelled site).1 =
        (hydrate services took caller m.organizationId cancelled site).1 ∧
      (resolveDefault services took caller user cancelled site).2.services =
        (hydrate services took caller m.organizationId cancelled site).2.services := by
  simp only [resolveDefault, (user.soleDefault_iff m).mp sole]
  cases answer : (hydrate services took caller m.organizationId cancelled site).1 with
  | ok outcome => rw [Call.bind_of_ok _ answer]; exact ⟨rfl, rfl⟩
  | error f => rw [Call.bind_of_error _ answer]; exact ⟨rfl, rfl⟩

omit site in
theorem resolveDefault_unclear {user : User} (unclear : ∀ m, ¬ user.SoleDefault m)
    (site : Site σ) :
    resolveDefault services took caller user cancelled site =
      (.ok (.reject .missingTenantId), site) := by
  unfold resolveDefault
  match defaults : user.defaultMemberships with
  | [] => rfl
  | [m] => exact absurd ((user.soleDefault_iff m).mpr defaults) (unclear m)
  | _ :: _ :: _ => rfl

variable (isValid : String → Bool)

theorem resolveAnonymous_decides (detection : Detection) :
    ∃ events, (resolveAnonymous isValid services.noting took detection cancelled site).2.services.events =
        site.services.events ++ events ∧
      Decides isValid (answersOf services .anonymous cancelled site.services.state) .anonymous
        detection events
        (resolveAnonymous isValid services.noting took detection cancelled site).1 := by
  obtain ⟨required, tenantId⟩ := detection
  cases tenantId with
  | none =>
    refine ⟨[], (List.append_nil _).symm, ?_⟩
    cases required with
    | true => exact .anonymousMissing
    | false => exact .anonymousForward
  | some t =>
    simp only [resolveAnonymous]
    cases valid : isValid t with
    | true =>
      refine ⟨_, hydrate_noted services took .anonymous cancelled site t, ?_⟩
      simp only [↓reduceIte, hydrate_answer]
      exact .anonymousTenant required valid
    | false => exact ⟨[], (List.append_nil _).symm, .invalid _ _ valid⟩

theorem resolveAuthenticated_decides (c : String) (detection : Detection) :
    ∃ events,
      (resolveAuthenticated isValid services.noting took c detection cancelled site).2.services.events =
        site.services.events ++ events ∧
      Decides isValid (answersOf services (.authenticated c) cancelled site.services.state)
        (.authenticated c) detection events
        (resolveAuthenticated isValid services.noting took c detection cancelled site).1 := by
  obtain ⟨required, tenantId⟩ := detection
  -- The cases are those of the rules: what is named, what is required, what the service answers.
  cases tenantId with
  | none =>
    simp only [resolveAuthenticated]
    cases required with
    | false => exact ⟨[], (List.append_nil _).symm, .authenticatedForward c⟩
    | true =>
      simp only [↓reduceIte]
      cases looked : (services.memberships (.authenticated c) c cancelled site.services.state).1 with
      | error f =>
        obtain ⟨after, ended, noted⟩ := memberships_failed services took (.authenticated c) cancelled
          site looked _
        rw [ended]
        exact ⟨_, noted, .defaultFailed looked⟩
      | ok user =>
        obtain ⟨after, goes, noted⟩ := memberships_found services took (.authenticated c) cancelled
          site looked _
        rw [goes]
        by_cases sole : ∃ m, user.SoleDefault m
        · obtain ⟨m, sole⟩ := sole
          obtain ⟨same, left⟩ :=
            resolveDefault_sole services.noting took (.authenticated c) cancelled sole after
          rw [same, left, hydrate_noted, hydrate_answer, noted]
          exact ⟨_, List.append_assoc _ _ _, .soleDefault looked sole⟩
        · rw [not_exists] at sole
          rw [resolveDefault_unclear _ _ _ _ sole]
          exact ⟨_, congrArg Noted.events noted, .noSoleDefault looked sole⟩
  | some t =>
    simp only [resolveAuthenticated]
    cases valid : isValid t with
    | false => exact ⟨[], (List.append_nil _).symm, .invalid _ _ valid⟩
    | true =>
      simp only [↓reduceIte]
      cases looked : (services.memberships (.authenticated c) c cancelled site.services.state).1 with
      | error f =>
        obtain ⟨after, ended, noted⟩ := memberships_failed services took (.authenticated c) cancelled
          site looked _
        rw [ended]
        exact ⟨_, noted, .memberFailed required valid looked⟩
      | ok user =>
        obtain ⟨after, goes, noted⟩ := memberships_found services took (.authenticated c) cancelled
          site looked _
        rw [goes]
        have known := user.membershipOf_isSome_iff t
        cases held : user.membershipOf t with
        | some m =>
          have member := known.mp (by rw [held]; rfl)
          simp only
          rw [hydrate_noted, hydrate_answer, noted]
          exact ⟨_, List.append_assoc _ _ _, .member required valid looked member⟩
        | none =>
          have stranger : ¬ user.IsMember t := by simp [← known, held]
          exact ⟨_, congrArg Noted.events noted, .notMember required valid looked stranger⟩

theorem resolve_decides (detection : Detection) :
    ∃ events,
      (resolve isValid services.noting took caller detection cancelled site).2.services.events =
        site.services.events ++ events ∧
      Decides isValid (answersOf services caller cancelled site.services.state) caller detection
        events (resolve isValid services.noting took caller detection cancelled site).1 := by
  cases caller with
  | anonymous => exact resolveAnonymous_decides services took cancelled site isValid detection
  | authenticated c =>
    exact resolveAuthenticated_decides services took cancelled site isValid c detection

omit site in
theorem resolve_follows_rules (detection : Detection) (site : Site σ) :
    Decides isValid (answersOf services caller cancelled site.services) caller detection
      (resolve isValid services.noting took caller detection cancelled
        site.noting).2.services.events
      (resolve isValid services took caller detection cancelled site).1 := by
  obtain ⟨made, noted, decided⟩ :=
    resolve_decides services took caller cancelled site.noting isValid detection
  have same : (resolve isValid services.noting took caller detection cancelled site.noting).1 =
      (resolve isValid services took caller detection cancelled site).1 :=
    (alike_resolve (noting_collaborators_alike services) isValid took caller detection cancelled
      _ _ (noting_site_alike site)).1
  rw [same] at decided
  rw [noted]
  exact decided

end Resolver

end TenantGate
