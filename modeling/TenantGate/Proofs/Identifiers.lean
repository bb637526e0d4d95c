import TenantGate.Proofs.Serving
import TenantGate.Tenant.Directory

/-!
Which tenants settings are looked up for, and which a request is forwarded with. All of them are
valid identifiers but one: the organization of a default membership is taken as the end-users
service reports it.
-/
namespace TenantGate

open Gate

variable {σ : Type}

namespace Gate

def Event.tenant? : Event → Option String
  | .settings _ tenantId _ => some tenantId
  | _ => none

end Gate

namespace Identifier

/-- Whether a candidate is not empty and not too long to be looked at. -/
def isInLimits (candidate : String) : Bool :=
  0 < candidate.utf8ByteSize && candidate.utf8ByteSize ≤ greatestLength

theorem isInLimits_of_isValid {candidate : String} (valid : isValid candidate = true) :
    isInLimits candidate = true := by
  simp only [isValid, Bool.and_eq_true, bne_iff_ne, decide_eq_true_eq] at valid
  simp only [isInLimits, Bool.and_eq_true, decide_eq_true_eq]
  exact ⟨Nat.pos_of_ne_zero valid.1.1, valid.1.2⟩

end Identifier

namespace Resolver

/-- All tenants that a decision is concerned with are valid: those that settings are looked up for
and the one that the request is forwarded with. -/
structure ValidTenants (isValid : String → Bool) (events : List Event)
    (result : Except Failure Outcome) : Prop where
  asked : ∀ event ∈ events, ∀ t, event.tenant? = some t → isValid t = true
  forwarded : ∀ tenancy, result = .ok (.forwardWith tenancy) → isValid tenancy.tenantId = true

/-- The decision falls back to the default membership, and its organization is no valid tenant. -/
def InvalidDefault (isValid : String → Bool) (answers : Answers) (caller : Caller)
    (detection : Detection) : Prop :=
  ∃ c user m, caller = .authenticated c ∧ detection = ⟨true, none⟩ ∧
    answers.memberships c = .ok user ∧ user.SoleDefault m ∧ isValid m.organizationId = false

variable {isValid : String → Bool} {answers : Answers} {caller : Caller} {detection : Detection}
  {events : List Event} {result : Except Failure Outcome}

theorem ValidTenants.mono {isValid isValid' : String → Bool}
    (all : ValidTenants isValid events result)
    (weaker : ∀ t, isValid t = true → isValid' t = true) :
    ValidTenants isValid' events result :=
  ⟨fun event among t tenant => weaker t (all.asked event among t tenant),
    fun tenancy ends => weaker _ (all.forwarded tenancy ends)⟩

theorem validTenants_of_nothing (unasked : ∀ event ∈ events, event.tenant? = none)
    (unsettled : ∀ tenancy, result ≠ .ok (.forwardWith tenancy)) :
    ValidTenants isValid events result := by
  refine ⟨?_, ?_⟩
  · intro event among t tenant
    rw [unasked event among] at tenant
    exact absurd tenant (by simp)
  · intro tenancy ends
    exact absurd ends (unsettled tenancy)

theorem validTenants_hydrated_iff {t : String} {before : List Event} {caller : Caller}
    {answer : Except Failure Settings} (unasked : ∀ event ∈ before, event.tenant? = none) :
    ValidTenants isValid (before ++ [.settings caller t answer]) (hydrated t answer) ↔
      isValid t = true := by
  constructor
  · intro all
    exact all.asked (.settings caller t answer) (by simp) t rfl
  · intro valid
    refine ⟨?_, ?_⟩
    · intro event among t' tenant
      rcases List.mem_append.mp among with early | last
      · rw [unasked event early] at tenant
        exact absurd tenant (by simp)
      · rw [List.mem_singleton.mp last] at tenant
        rw [← Option.some.inj tenant]
        exact valid
    · intro tenancy ends
      rw [tenant_of_hydrated ends]
      exact valid

theorem not_invalidDefault_of_valid (c : String) {user : User} {m : Membership}
    (found : answers.memberships c = .ok user) (sole : user.SoleDefault m) :
    ¬ InvalidDefault isValid answers (.authenticated c) ⟨true, none⟩ ↔
      isValid m.organizationId = true := by
  rw [← Bool.not_eq_false, not_iff_not]
  constructor
  · rintro ⟨_, user', m', known, _, answered, sole', invalid⟩
    cases known
    rw [found] at answered
    cases answered
    rw [User.soleDefault_iff] at sole sole'
    rw [sole] at sole'
    cases sole'
    exact invalid
  · intro invalid
    exact ⟨c, user, m, rfl, rfl, found, sole, invalid⟩

theorem validTenants_iff_of_decides
    (rule : Decides isValid answers caller detection events result) :
    ValidTenants isValid events result ↔ ¬ InvalidDefault isValid answers caller detection := by
  have lookup {c : String} {answer : Except Failure User} :
      ∀ event ∈ [Event.memberships (.authenticated c) c answer], event.tenant? = none := by
    intro event among
    rw [List.mem_singleton.mp among]
    rfl
  have nothing : ∀ event ∈ ([] : List Event), event.tenant? = none := by simp
  cases rule with
  | anonymousTenant required valid =>
    refine iff_of_true ((validTenants_hydrated_iff nothing).mpr valid) ?_
    rintro ⟨_, _, _, known, _⟩
    cases known
  | member required valid found member =>
    refine iff_of_true ((validTenants_hydrated_iff lookup).mpr valid) ?_
    rintro ⟨_, _, _, _, named, _⟩
    cases named
  | soleDefault found sole =>
    exact (validTenants_hydrated_iff lookup).trans (not_invalidDefault_of_valid _ found sole).symm
  | noSoleDefault found unclear =>
    refine iff_of_true (validTenants_of_nothing lookup (by simp)) ?_
    rintro ⟨c, user, m, known, _, answered, sole, _⟩
    cases known
    rw [found] at answered
    cases answered
    exact unclear m sole
  | defaultFailed failed =>
    refine iff_of_true (validTenants_of_nothing lookup (by simp)) ?_
    rintro ⟨c, user, m, known, _, answered, _⟩
    cases known
    rw [failed] at answered
    cases answered
  | notMember required valid found stranger =>
    refine iff_of_true (validTenants_of_nothing lookup (by simp)) ?_
    rintro ⟨_, _, _, _, named, _⟩
    cases named
  | memberFailed required valid failed =>
    refine iff_of_true (validTenants_of_nothing lookup (by simp)) ?_
    rintro ⟨_, _, _, _, named, _⟩
    cases named
  | _ =>
    refine iff_of_true (validTenants_of_nothing nothing (by simp)) ?_
    rintro ⟨_, _, _, known, named, _⟩
    cases known <;> cases named

/-- The tenants that settings are looked up for, and the one that a request is forwarded with, are
valid unless the only default membership of the caller, reported where a tenant is required and none
is named, is in an organization that is not. Where valid means a valid identifier, they then keep to
the limits of its length. -/
theorem tenants_valid_iff (services : Collaborators σ) (took : Durations) (caller : Caller)
    (detection : Detection) (cancelled : Bool) (site : Site σ) :
    (∀ isValid, ValidTenants isValid
        (resolve isValid services.noting took caller detection cancelled
          site.noting).2.services.events
        (resolve isValid services took caller detection cancelled site).1 ↔
      ¬ InvalidDefault isValid (answersOf services caller cancelled site.services) caller
        detection) ∧
    (¬ InvalidDefault Identifier.isValid (answersOf services caller cancelled site.services) caller
        detection →
      ValidTenants Identifier.isInLimits
        (resolve Identifier.isValid services.noting took caller detection cancelled
          site.noting).2.services.events
        (resolve Identifier.isValid services took caller detection cancelled site).1) := by
  have checked (isValid : String → Bool) := validTenants_iff_of_decides
    (resolve_follows_rules services took caller cancelled isValid detection site)
  exact ⟨checked, fun regular =>
    ((checked _).mpr regular).mono fun _ valid => Identifier.isInLimits_of_isValid valid⟩

/-- Services that report one default membership, in an organization with a blank in its name. -/
def blankOrganization : Collaborators Unit where
  memberships _ c _ := .done ⟨c, [⟨"m1", c, "bad org", true⟩]⟩
  settings _ _ _ := .done .empty

/-- The invalid identifier reaches the service and the request. -/
theorem default_organization_is_not_checked :
    Identifier.isValid "bad org" = false ∧
      (resolve Identifier.isValid blankOrganization .instant (.authenticated "user_acallerid00")
        ⟨true, none⟩ false freshSite).1 =
          .ok (.forwardWith ⟨"bad org", .empty⟩) ∧
      ((resolve Identifier.isValid blankOrganization.noting .instant
        (.authenticated "user_acallerid00") ⟨true, none⟩ false
          freshSite.noting).2.services.events.filterMap Event.tenant?) = ["bad org"] := by
  decide +kernel

end Resolver

end TenantGate
