import TenantGate.Proofs.Verdicts
import TenantGate.Service.World

/-!
What a host asks other services, and what it makes of the deliveries. Hosts that ask different
services, or the same ones over different networks, are compared call by call: if each call of the
one is answered like that of the other, up to related failures, then so are the services as a whole,
with all that they remember.
-/
namespace TenantGate

open Gate Net Auth

variable {ν ν' α : Type} {F : Failure → Failure → Prop} {N : ν → ν' → Prop}

namespace Net

def Delivery.sent (request : Outgoing) : Delivery → Except SendFault (Http.Status × List UInt8)
  | .refused => .error (.refused request.url.text)
  | .answered status body => .ok (status, body)

theorem send_unbuilt {draft : Draft} {f : SendFault} (unbuilt : draft.build = .error f)
    (network : Network ν) (n : ν) : network.send draft n = (.error f, n) := by
  simp only [Network.send, unbuilt]

theorem send_built {draft : Draft} {request : Outgoing} (built : draft.build = .ok request)
    (network : Network ν) (n : ν) :
    network.send draft n = ((network request n).1.sent request, (network request n).2) := by
  simp only [Network.send, built]
  rcases network request n with ⟨_ | ⟨_, _⟩, _⟩ <;> rfl

end Net

namespace Service

namespace Client

def draft (c : Client) (caller : Caller) (segments : List String) : Draft :=
  ⟨.get, .ok (c.endpoint segments), c.headersFor caller, ""⟩

def received (c : Client) (format : Json.Format α) (segments : List String) :
    Except SendFault (Http.Status × List UInt8) → Except Failure α
  | .ok (status, body) => c.readAnswer format (c.endpoint segments) status body
  | .error f => .error (.serviceUnavailable (c.name ++ " unavailable: " ++ f.text))

theorem getJson_cancelled (network : Network ν) (c : Client) (format : Json.Format α)
    (caller : Caller) (segments : List String) :
    c.getJson network format caller segments true = Call.fail .cancelled := rfl

theorem getJson_going (network : Network ν) (c : Client) (format : Json.Format α)
    (caller : Caller) (segments : List String) (n : ν) :
    c.getJson network format caller segments false n =
      (c.received format segments (network.send (c.draft caller segments) n).1,
        (network.send (c.draft caller segments) n).2) := by
  simp only [getJson, draft, Bool.false_eq_true, ↓reduceIte]
  rcases network.send _ n with ⟨_ | ⟨_, _⟩, _⟩ <;> rfl

/-- Nothing that was asked for can be had from the delivery. That there is no such resource is an
answer too. -/
def Unanswered (format : Json.Format α) : Delivery → Prop
  | .refused => True
  | .answered status body =>
    status ≠ .notFound ∧ (status.isSuccess = true → ∀ a, format.readBytes body ≠ .ok a)

theorem received_unanswered (c : Client) {format : Json.Format α} {delivery : Delivery}
    (unanswered : Unanswered format delivery) (segments : List String) (request : Outgoing) :
    ∃ message, c.received format segments (delivery.sent request) =
      .error (.serviceUnavailable message) := by
  cases delivery with
  | refused => exact ⟨_, rfl⟩
  | answered status body =>
    obtain ⟨present, unread⟩ := unanswered
    simp only [Delivery.sent, received, readAnswer, if_neg present]
    split
    · exact ⟨_, rfl⟩
    · rename_i success
      split
      · rename_i a read
        exact absurd read (unread (by simpa using success) a)
      · exact ⟨_, rfl⟩

end Client

namespace Identity

def received : Except SendFault (Http.Status × List UInt8) → Except Failure Introspection
  | .ok (status, body) => readAnswer status body
  | .error f => .error (.serviceUnavailable ("Identity service unavailable: " ++ f.text))

theorem ask_eq (network : Network ν) (c : Identity) (token : String) (n : ν) :
    c.ask network token n =
      (received (network.send (question c token) n).1, (network.send (question c token) n).2) := by
  simp only [ask, question]
  rcases network.send _ n with ⟨_ | ⟨_, _⟩, _⟩ <;> rfl

def Unanswered : Delivery → Prop
  | .refused => True
  | .answered status body =>
    status.isSuccess = true → ∀ verdict, Introspection.format.readBytes body ≠ .ok verdict

theorem received_unanswered {delivery : Delivery} (unanswered : Unanswered delivery)
    (request : Outgoing) :
    ∃ message, received (delivery.sent request) = .error (.serviceUnavailable message) := by
  cases delivery with
  | refused => exact ⟨_, rfl⟩
  | answered status body =>
    simp only [Delivery.sent, received, readAnswer]
    split
    · exact ⟨_, rfl⟩
    · rename_i success
      split
      · rename_i verdict read
        exact absurd read (unanswered (by simpa using success) verdict)
      · exact ⟨_, rfl⟩

end Identity

def membershipsPlace (userId : String) : List String := ["private", "users", userId, "memberships"]

def settingsPlace (tenantId : String) : List String :=
  ["private", "organizations", tenantId, "settings"]

structure Parties where
  endUsers : Backing
  organizations : Backing
  identity : Identity

inductive Query where
  | verdict (token : String)
  | memberships (caller : Caller) (userId : String)
  | settings (caller : Caller) (tenantId : String)

def Backing.client? : Backing → Option Client
  | .client c => some c
  | _ => none

def Query.Unanswered : Query → Delivery → Prop
  | .verdict _ => Identity.Unanswered
  | .memberships _ _ => Client.Unanswered User.format
  | .settings _ _ => Client.Unanswered Settings.format

namespace Parties

def services (p : Parties) (network : Network ν) (isValid : String → Bool) : Services (World ν) :=
  servicesOf network isValid p.endUsers p.organizations p.identity

def draft? (p : Parties) : Query → Option Draft
  | .verdict token => if p.identity.isMock then none else some (question p.identity token)
  | .memberships caller userId =>
    p.endUsers.client?.map fun c => c.draft caller (membershipsPlace userId)
  | .settings caller tenantId =>
    p.organizations.client?.map fun c => c.draft caller (settingsPlace tenantId)

theorem draft?_verdict {p : Parties} (real : ¬ p.identity.isMock = true) (token : String) :
    p.draft? (.verdict token) = some (question p.identity token) := by
  simp only [draft?, if_neg real]

theorem draft?_memberships {p : Parties} {c : Client} (asked : p.endUsers = .client c)
    (caller : Caller) (userId : String) :
    p.draft? (.memberships caller userId) = some (c.draft caller (membershipsPlace userId)) := by
  simp only [draft?, asked, Backing.client?, Option.map_some]

theorem draft?_settings {p : Parties} {c : Client} (asked : p.organizations = .client c)
    (caller : Caller) (tenantId : String) :
    p.draft? (.settings caller tenantId) = some (c.draft caller (settingsPlace tenantId)) := by
  simp only [draft?, asked, Backing.client?, Option.map_some]

end Parties

section Akin

theorem akin_getJson (kin : Failure.Kinship F) {network : Network ν} {network' : Network ν'}
    {c c' : Client} {format : Json.Format α} {caller : Caller} {segments : List String}
    (sent : ∀ n n', N n n' →
      AnswersAkin F (c.received format segments (network.send (c.draft caller segments) n).1)
          (c'.received format segments (network'.send (c'.draft caller segments) n').1) ∧
        N (network.send (c.draft caller segments) n).2
          (network'.send (c'.draft caller segments) n').2)
    (cancelled : Bool) :
    Call.Akin F N (c.getJson network format caller segments cancelled)
      (c'.getJson network' format caller segments cancelled) := by
  intro n n' related
  cases cancelled with
  | true => exact ⟨.error (kin.self _), related⟩
  | false =>
    rw [Client.getJson_going, Client.getJson_going]
    exact sent n n' related

theorem akin_remembered {call : Call ν α} {call' : Call ν' α} (akin : Call.Akin F N call call')
    (key : String) :
    Call.Akin F (fun t s => t.1 = s.1 ∧ N t.2 s.2) (remembered key call)
      (remembered key call') := by
  rintro ⟨cache, n⟩ ⟨_, n'⟩ ⟨rfl, related⟩
  simp only [remembered]
  cases cache.lookup key with
  | some a => exact ⟨.ok a, rfl, related⟩
  | none =>
    obtain ⟨answer, left⟩ := akin n n' related
    simp only
    generalize call n = x at answer left ⊢
    generalize call' n' = y at answer left ⊢
    obtain ⟨result, n⟩ := x
    obtain ⟨result', n'⟩ := y
    cases answer with
    | ok a => exact ⟨.ok a, rfl, left⟩
    | error akin => exact ⟨.error akin, rfl, left⟩

inductive Backing.Matches (match' : Client → Client → Prop) : Backing → Backing → Prop where
  | directory : Matches match' .directory .directory
  | client {c c' : Client} (matched : match' c c') : Matches match' (.client c) (.client c')
  | outOfOrder (f : Failure) : Matches match' (.outOfOrder f) (.outOfOrder f)

theorem Backing.Matches.mono {P Q : Client → Client → Prop} {b b' : Backing}
    (matched : b.Matches P b')
    (weaker : ∀ c c', b = .client c → b' = .client c' → P c c' → Q c c') : b.Matches Q b' := by
  cases matched with
  | directory => exact .directory
  | client matched => exact .client (weaker _ _ rfl rfl matched)
  | outOfOrder f => exact .outOfOrder f

theorem Backing.matches_self (b : Backing) : b.Matches Eq b := by
  cases b with
  | directory => exact .directory
  | client c => exact .client rfl
  | outOfOrder f => exact .outOfOrder f

structure World.Beside (N : ν → ν' → Prop) (w : World ν) (w' : World ν') : Prop where
  directory : w.directory = w'.directory
  verdicts : w.verdicts = w'.verdicts
  settings : w.settings = w'.settings
  failedCalls : w.failedCalls = w'.failedCalls
  network : N w.network w'.network

theorem akin_onDirectory (kin : Failure.Kinship F) (call : Call Directory α) :
    Call.Akin F (World.Beside N) (Backing.onDirectory call) (Backing.onDirectory call) := by
  intro w w' beside
  obtain ⟨directory, verdicts, settings, failedCalls, network⟩ := beside
  simp only [Backing.onDirectory, Call.onPart, directory]
  refine ⟨?_, rfl, verdicts, settings, failedCalls, network⟩
  cases (call w'.directory).1 with
  | ok a => exact .ok a
  | error f => exact .error (kin.self f)

theorem akin_onNetwork {call : Call ν α} {call' : Call ν' α} (akin : Call.Akin F N call call') :
    Call.Akin F (World.Beside N) (Backing.onNetwork call) (Backing.onNetwork call') := by
  intro w w' beside
  obtain ⟨directory, verdicts, settings, failedCalls, network⟩ := beside
  obtain ⟨answer, left⟩ := akin _ _ network
  exact ⟨answer, directory, verdicts, settings, failedCalls, left⟩

theorem akin_onVerdicts {call : Call ν Introspection} {call' : Call ν' Introspection}
    (akin : Call.Akin F N call call') (token : String) :
    Call.Akin F (World.Beside N) (Backing.onVerdicts (remembered token call))
      (Backing.onVerdicts (remembered token call')) := by
  intro w w' beside
  obtain ⟨directory, verdicts, settings, failedCalls, network⟩ := beside
  obtain ⟨answer, kept, left⟩ := akin_remembered akin token (w.verdicts, w.network)
    (w'.verdicts, w'.network) ⟨verdicts, network⟩
  exact ⟨answer, directory, kept, settings, failedCalls, left⟩

theorem akin_onSettings {call : Call ν Settings} {call' : Call ν' Settings}
    (akin : Call.Akin F N call call') (tenantId : String) :
    Call.Akin F (World.Beside N) (Backing.onSettings (remembered tenantId call))
      (Backing.onSettings (remembered tenantId call')) := by
  intro w w' beside
  obtain ⟨directory, verdicts, settings, failedCalls, network⟩ := beside
  obtain ⟨answer, kept, left⟩ := akin_remembered akin tenantId (w.settings, w.network)
    (w'.settings, w'.network) ⟨settings, network⟩
  exact ⟨answer, directory, verdicts, kept, failedCalls, left⟩

theorem akin_failing (kin : Failure.Kinship F) (f : Failure) :
    Call.Akin F (World.Beside N) (Backing.failing f : Call (World ν) α) (Backing.failing f) := by
  intro w w' beside
  obtain ⟨directory, verdicts, settings, failedCalls, network⟩ := beside
  exact ⟨.error (kin.self f), directory, verdicts, settings, congrArg (· + 1) failedCalls, network⟩

theorem akin_servicesOf (kin : Failure.Kinship F) {network : Network ν} {network' : Network ν'}
    (isValid : String → Bool) {endUsers endUsers' organizations organizations' : Backing}
    {identity identity' : Identity}
    (memberships : endUsers.Matches (fun c c' => ∀ caller userId cancelled,
      Call.Akin F N
        (c.getJson network User.format caller (membershipsPlace userId) cancelled)
        (c'.getJson network' User.format caller (membershipsPlace userId) cancelled)) endUsers')
    (settings : organizations.Matches (fun c c' => ∀ caller tenantId cancelled,
      Call.Akin F N
        (c.getJson network Settings.format caller (settingsPlace tenantId) cancelled)
        (c'.getJson network' Settings.format caller (settingsPlace tenantId) cancelled))
      organizations')
    (verdicts : ∀ token, Call.Akin F N (freshVerdict network identity token)
      (freshVerdict network' identity' token)) :
    Services.Akin F (World.Beside N) (servicesOf network isValid endUsers organizations identity)
      (servicesOf network' isValid endUsers' organizations' identity') := by
  refine ⟨⟨?_, ?_⟩, fun token => akin_onVerdicts (verdicts token) token, rfl⟩
  · intro caller userId cancelled
    cases memberships with
    | directory => exact akin_onDirectory kin _
    | client akin => exact akin_onNetwork (akin caller userId cancelled)
    | outOfOrder f => exact akin_failing kin f
  · intro caller tenantId cancelled
    cases settings with
    | directory => exact akin_onDirectory kin _
    | client akin => exact akin_onSettings (akin caller tenantId cancelled) tenantId
    | outOfOrder f => exact akin_failing kin f

end Akin

end Service

end TenantGate
