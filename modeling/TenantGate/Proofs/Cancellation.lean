import TenantGate.Proofs.Asking

/-!
Lookups on behalf of a request that is cancelled already. They end as cancelled and change nothing
but a count of lookups, whatever the collaborator and whatever it holds, save that a client hands
out the settings it remembers without looking whether they are still wanted. What is not cancelled
never ends as cancelled.
-/
namespace TenantGate.Service

open Net

variable {ν α : Type}

structure World.HoldsAs (w w' : World ν) : Prop where
  memberships : w'.directory.memberships = w.directory.memberships
  tenants : w'.directory.settings = w.directory.settings
  verdicts : w'.verdicts = w.verdicts
  settings : w'.settings = w.settings
  network : w'.network = w.network

theorem World.holdsAs_self (w : World ν) : w.HoldsAs w := ⟨rfl, rfl, rfl, rfl, rfl⟩

namespace Backing

def InOrder (b : Backing) : Prop := ∀ f, b ≠ .outOfOrder f

def remembered? (b : Backing) (w : World ν) (tenantId : String) : Option Settings :=
  match b with
  | .client _ => w.settings.lookup tenantId
  | _ => none

end Backing

namespace Client

variable {network : Network ν} {c : Client} {format : Json.Format α} {caller : Caller}
  {segments : List String} {n : ν}

theorem received_not_cancelled (sent : Except SendFault (Http.Status × List UInt8)) :
    c.received format segments sent ≠ .error .cancelled := by
  intro ended
  cases sent with
  | error f => simp [received] at ended
  | ok answer =>
    obtain ⟨status, body⟩ := answer
    simp only [received, readAnswer] at ended
    split at ended
    · simp at ended
    · split at ended
      · simp at ended
      · split at ended <;> simp at ended

theorem getJson_not_cancelled :
    (c.getJson network format caller segments false n).1 ≠ .error .cancelled := by
  rw [getJson_going]
  exact received_not_cancelled _

end Client

section Lookups

variable {network : Network ν} {b : Backing} {caller : Caller} {userId tenantId : String}
  {w : World ν}

theorem memberships_cancelled (inOrder : b.InOrder) :
    (b.memberships network caller userId true w).1 = .error .cancelled ∧
      w.HoldsAs (b.memberships network caller userId true w).2 := by
  cases b with
  | directory => exact ⟨rfl, rfl, rfl, rfl, rfl, rfl⟩
  | client c => exact ⟨rfl, w.holdsAs_self⟩
  | outOfOrder f => exact absurd rfl (inOrder f)

theorem memberships_going (inOrder : b.InOrder) :
    (b.memberships network caller userId false w).1 ≠ .error .cancelled := by
  cases b with
  | directory => exact nofun
  | client c =>
    unfold Backing.memberships Backing.onNetwork Call.onPart fetchMemberships
    exact Client.getJson_not_cancelled
  | outOfOrder f => exact absurd rfl (inOrder f)

theorem settings_cancelled (inOrder : b.InOrder) :
    (b.settings network caller tenantId true w).1 =
        (match b.remembered? w tenantId with
        | some settings => .ok settings
        | none => .error .cancelled) ∧
      w.HoldsAs (b.settings network caller tenantId true w).2 := by
  cases b with
  | directory => exact ⟨rfl, rfl, rfl, rfl, rfl, rfl⟩
  | client c =>
    simp only [Backing.settings, Backing.onSettings, Call.onPart, fetchSettings,
      Client.getJson_cancelled, Backing.remembered?]
    cases held : w.settings.lookup tenantId with
    | some settings =>
      rw [remembered_known held]
      exact ⟨rfl, w.holdsAs_self⟩
    | none =>
      rw [remembered_unknown held]
      exact ⟨rfl, w.holdsAs_self⟩
  | outOfOrder f => exact absurd rfl (inOrder f)

theorem remembered_going {call : Call ν α} {key : String} {cache : Cache α} {n : ν}
    (going : (call n).1 ≠ .error .cancelled) :
    (remembered key call (cache, n)).1 ≠ .error .cancelled := by
  cases held : cache.lookup key with
  | some a =>
    rw [remembered_known held]
    exact nofun
  | none =>
    rw [remembered_unknown held]
    exact going

theorem settings_going (inOrder : b.InOrder) :
    (b.settings network caller tenantId false w).1 ≠ .error .cancelled := by
  cases b with
  | directory =>
    intro ended
    simp only [Backing.settings, Backing.onDirectory, Call.onPart, Directory.lookupSettings,
      Bool.false_eq_true, ↓reduceIte] at ended
    cases found : w.directory.settings.lookup tenantId with
    | some settings => simp [found] at ended
    | none => simp [found] at ended
  | client c => exact remembered_going Client.getJson_not_cancelled
  | outOfOrder f => exact absurd rfl (inOrder f)

theorem settings_again {c : Client} {cancelled : Bool} {settings : Settings}
    (told : ((Backing.client c).settings network caller tenantId cancelled w).1 = .ok settings)
    (caller' : Caller) (cancelled' : Bool) :
    (Backing.client c).settings network caller' tenantId cancelled'
        ((Backing.client c).settings network caller tenantId cancelled w).2 =
      (.ok settings, ((Backing.client c).settings network caller tenantId cancelled w).2) := by
  simp only [Backing.settings, Backing.onSettings, Call.onPart, fetchSettings] at told ⊢
  rw [remembered_again told]

end Lookups

/-- Every lookup that is cancelled ends as such and leaves all as it was; only the settings that a
client remembers are handed out all the same. No other lookup ends as cancelled. -/
theorem cancelled_lookups_end (network : Network ν) {b : Backing} (inOrder : b.InOrder)
    (caller : Caller) (id : String) (w : World ν) :
    ((b.memberships network caller id true w).1 = .error .cancelled ∧
      w.HoldsAs (b.memberships network caller id true w).2 ∧
      (b.memberships network caller id false w).1 ≠ .error .cancelled) ∧
    (((b.settings network caller id true w).1 = .error .cancelled ↔ b.remembered? w id = none) ∧
      (∀ settings, b.remembered? w id = some settings →
        (b.settings network caller id true w).1 = .ok settings) ∧
      w.HoldsAs (b.settings network caller id true w).2 ∧
      (b.settings network caller id false w).1 ≠ .error .cancelled) := by
  refine ⟨⟨(memberships_cancelled inOrder).1, (memberships_cancelled inOrder).2,
    memberships_going inOrder⟩, ?_, ?_, (settings_cancelled inOrder).2, settings_going inOrder⟩
  · rw [(settings_cancelled inOrder).1]
    cases b.remembered? w id with
    | some settings => simp
    | none => simp
  · intro settings remembered
    rw [(settings_cancelled inOrder).1, remembered]

def regionService : Network Unit :=
  .answering "\x7b\"region\":\x7b\"value\":\"eu-west\"\x7d\x7d"

def regionalSettings : Settings := ⟨[("region", ⟨"eu-west", false⟩)]⟩

def regionClient : Backing :=
  .client ⟨organizationsName, ⟨"http", [], none, some "organizations", none, ['/'], none, none, false⟩,
    none⟩

theorem forgotten_settings_are_cancelled :
    regionClient.InOrder ∧ regionClient.remembered? (World.start ()) "t1" = none ∧
      (regionClient.settings regionService .anonymous "t1" true (World.start ())).1 =
        .error .cancelled := by
  have inOrder : regionClient.InOrder := fun f => by simp [regionClient]
  have forgotten : regionClient.remembered? (World.start ()) "t1" = none := rfl
  obtain ⟨_, cancelled, _⟩ :=
    cancelled_lookups_end regionService inOrder .anonymous "t1" (World.start ())
  exact ⟨inOrder, forgotten, cancelled.mpr forgotten⟩

/-- Settings that were asked for once are had again although the lookup is cancelled. -/
theorem remembered_settings_outlive_cancellation :
    let first := regionClient.settings regionService .anonymous "t1" false (World.start ())
    first.1 = .ok regionalSettings ∧
      regionClient.settings regionService .anonymous "t1" true first.2 =
        (.ok regionalSettings, first.2) ∧
      ¬ ∀ (b : Backing) (w : World Unit), b.InOrder →
        (b.settings regionService .anonymous "t1" true w).1 = .error .cancelled := by
  have told : (regionClient.settings regionService .anonymous "t1" false (World.start ())).1 =
      .ok regionalSettings := by decide +kernel
  have again : regionClient.settings regionService .anonymous "t1" true
      (regionClient.settings regionService .anonymous "t1" false (World.start ())).2 =
      (.ok regionalSettings,
        (regionClient.settings regionService .anonymous "t1" false (World.start ())).2) :=
    settings_again told .anonymous true
  refine ⟨told, again, ?_⟩
  intro always
  have ended := always regionClient
    (regionClient.settings regionService .anonymous "t1" false (World.start ())).2
    (fun f => by simp [regionClient])
  rw [again] at ended
  cases ended

end TenantGate.Service
