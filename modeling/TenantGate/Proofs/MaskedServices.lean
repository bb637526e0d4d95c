import TenantGate.Proofs.Masking
import TenantGate.Proofs.Verdicts

/-!
Services whose answers differ in encrypted values alone, from what is delivered to them on. What is
delivered is read, remembered and handed on, and stays alike on that way.
-/
namespace TenantGate

open Gate Net Service

variable {ν ν' α : Type} {N : ν → ν' → Prop}

namespace Service

structure BodiesSeenAlike (body body' : List UInt8) : Prop where
  user : (User.format.readBytes body).toOption = (User.format.readBytes body').toOption
  verdict : (Auth.Introspection.format.readBytes body).toOption =
    (Auth.Introspection.format.readBytes body').toOption
  settings : Option.Rel Settings.SeenAlike (Settings.format.readBytes body).toOption
    (Settings.format.readBytes body').toOption

inductive DeliveredSeenAlike : Delivery → Delivery → Prop where
  | refused : DeliveredSeenAlike .refused .refused
  | answered (status : Http.Status) {body body' : List UInt8} (alike : BodiesSeenAlike body body') :
      DeliveredSeenAlike (.answered status body) (.answered status body')

/-- In related states the networks deliver alike, and come to related states. -/
def NetworksSeenAlike (N : ν → ν' → Prop) (network : Network ν) (network' : Network ν') : Prop :=
  ∀ outgoing n n', N n n' →
    DeliveredSeenAlike (network outgoing n).1 (network' outgoing n').1 ∧
      N (network outgoing n).2 (network' outgoing n').2

inductive SentSeenAlike : Except SendFault (Http.Status × List UInt8) →
    Except SendFault (Http.Status × List UInt8) → Prop where
  | unsent (f : SendFault) : SentSeenAlike (.error f) (.error f)
  | answered (status : Http.Status) {body body' : List UInt8} (alike : BodiesSeenAlike body body') :
      SentSeenAlike (.ok (status, body)) (.ok (status, body'))

variable {network : Network ν} {network' : Network ν'}

theorem send_seenAlike (alike : NetworksSeenAlike N network network') (draft : Draft) {n : ν}
    {n' : ν'} (related : N n n') :
    SentSeenAlike (network.send draft n).1 (network'.send draft n').1 ∧
      N (network.send draft n).2 (network'.send draft n').2 := by
  simp only [Network.send]
  cases draft.build with
  | error f => exact ⟨.unsent f, related⟩
  | ok outgoing =>
    obtain ⟨delivered, left⟩ := alike outgoing n n' related
    simp only
    generalize network outgoing n = x at delivered left ⊢
    generalize network' outgoing n' = y at delivered left ⊢
    obtain ⟨delivery, n⟩ := x
    obtain ⟨delivery', n'⟩ := y
    cases delivered with
    | refused => exact ⟨.unsent _, left⟩
    | answered status bodies => exact ⟨.answered status bodies, left⟩

def Client.answerOf (c : Client) (url : Url) (status : Http.Status) (read? : Option α) :
    Except Failure α :=
  if status = .notFound then
    .error (.notFound (c.name ++ " has no resource at " ++ String.ofList url.path))
  else if !status.isSuccess then
    .error (.serviceUnavailable (c.name ++ " returned " ++ status.text))
  else
    match read? with
    | some a => .ok a
    | none =>
      .error (.serviceUnavailable
        ("Invalid " ++ c.name ++ " response: error decoding response body"))

theorem readAnswer_eq (c : Client) (format : Json.Format α) (url : Url) (status : Http.Status)
    (body : List UInt8) :
    c.readAnswer format url status body =
      c.answerOf url status (format.readBytes body).toOption := by
  unfold Client.readAnswer Client.answerOf
  cases format.readBytes body <;> rfl

def Identity.answerOf (status : Http.Status) (read? : Option Auth.Introspection) :
    Except Failure Auth.Introspection :=
  if !status.isSuccess then
    .error (.serviceUnavailable ("Identity service returned " ++ status.text))
  else
    match read? with
    | some verdict => .ok verdict
    | none =>
      .error (.serviceUnavailable
        "Invalid introspection response: error decoding response body")

theorem identity_readAnswer_eq (status : Http.Status) (body : List UInt8) :
    Identity.readAnswer status body =
      Identity.answerOf status (Auth.Introspection.format.readBytes body).toOption := by
  unfold Identity.readAnswer Identity.answerOf
  cases Auth.Introspection.format.readBytes body <;> rfl

theorem readAnswer_seenAlike (c : Client) (url : Url) (status : Http.Status)
    {body body' : List UInt8} (alike : BodiesSeenAlike body body') :
    AnswersSeenAlike (c.readAnswer Settings.format url status body)
      (c.readAnswer Settings.format url status body') := by
  rw [readAnswer_eq, readAnswer_eq]
  unfold Client.answerOf
  split
  · exact .failure _
  · split
    · exact .failure _
    · have read := alike.settings
      generalize (Settings.format.readBytes body).toOption = r at read ⊢
      generalize (Settings.format.readBytes body').toOption = r' at read ⊢
      cases read with
      | none => exact .failure _
      | some seen => exact .settings seen

theorem getJson_alike (alike : NetworksSeenAlike N network network') (c : Client)
    (format : Json.Format α) (caller : Caller) (segments : List String) (cancelled : Bool)
    (same : ∀ body body', BodiesSeenAlike body body' →
      (format.readBytes body).toOption = (format.readBytes body').toOption) :
    Call.Alike N (c.getJson network format caller segments cancelled)
      (c.getJson network' format caller segments cancelled) := by
  intro n n' related
  simp only [Client.getJson]
  split
  · exact ⟨rfl, related⟩
  · obtain ⟨sent, left⟩ := send_seenAlike alike
      ⟨.get, .ok (c.endpoint segments), c.headersFor caller, ""⟩ related
    generalize network.send _ n = x at sent left ⊢
    generalize network'.send _ n' = y at sent left ⊢
    obtain ⟨result, n⟩ := x
    obtain ⟨result', n'⟩ := y
    cases sent with
    | unsent f => exact ⟨rfl, left⟩
    | answered status bodies =>
      refine ⟨?_, left⟩
      simp only [readAnswer_eq, same _ _ bodies]

theorem getJson_settings_seenAlike (alike : NetworksSeenAlike N network network') (c : Client)
    (caller : Caller) (segments : List String) (cancelled : Bool) {n : ν} {n' : ν'}
    (related : N n n') :
    AnswersSeenAlike (c.getJson network Settings.format caller segments cancelled n).1
        (c.getJson network' Settings.format caller segments cancelled n').1 ∧
      N (c.getJson network Settings.format caller segments cancelled n).2
        (c.getJson network' Settings.format caller segments cancelled n').2 := by
  simp only [Client.getJson]
  split
  · exact ⟨.failure _, related⟩
  · obtain ⟨sent, left⟩ := send_seenAlike alike
      ⟨.get, .ok (c.endpoint segments), c.headersFor caller, ""⟩ related
    generalize network.send _ n = x at sent left ⊢
    generalize network'.send _ n' = y at sent left ⊢
    obtain ⟨result, n⟩ := x
    obtain ⟨result', n'⟩ := y
    cases sent with
    | unsent f => exact ⟨.failure _, left⟩
    | answered status bodies => exact ⟨readAnswer_seenAlike c _ status bodies, left⟩

theorem freshVerdict_alike (alike : NetworksSeenAlike N network network') (identity : Identity)
    (token : String) :
    Call.Alike N (freshVerdict network identity token) (freshVerdict network' identity token) := by
  intro n n' related
  unfold freshVerdict
  split
  · exact ⟨rfl, related⟩
  · simp only [Identity.ask]
    obtain ⟨sent, left⟩ := send_seenAlike alike
      ⟨.post, Url.parse (identity.base ++ "/tokens/introspect"),
        [("content-type", "application/json")], Auth.IntrospectionRequest.format.write ⟨token⟩⟩
      related
    generalize network.send _ n = x at sent left ⊢
    generalize network'.send _ n' = y at sent left ⊢
    obtain ⟨result, n⟩ := x
    obtain ⟨result', n'⟩ := y
    cases sent with
    | unsent f => exact ⟨rfl, left⟩
    | answered status bodies =>
      refine ⟨?_, left⟩
      simp only [identity_readAnswer_eq, bodies.verdict]

/-- The memories hold settings that are seen alike, under the same keys. -/
def CachesSeenAlike (cache cache' : Cache Settings) : Prop :=
  List.Forall₂ (fun e e' => e.1 = e'.1 ∧ e.2.SeenAlike e'.2) cache cache'

theorem lookup_seenAlike {cache cache' : Cache Settings} (alike : CachesSeenAlike cache cache')
    (key : String) : Option.Rel Settings.SeenAlike (cache.lookup key) (cache'.lookup key) := by
  change List.Forall₂ _ cache cache' at alike
  induction alike with
  | nil => exact .none
  | @cons e e' _ _ first _ ih =>
    obtain ⟨name, s⟩ := e
    obtain ⟨name', s'⟩ := e'
    obtain ⟨rfl, seen⟩ := first
    simp only [List.lookup_cons]
    split
    · exact .some seen
    · exact ih

theorem insertEntry_seenAlike {cache cache' : Cache Settings} {s s' : Settings}
    (alike : CachesSeenAlike cache cache') (seen : s.SeenAlike s') (key : String) :
    CachesSeenAlike (insertEntry key s cache) (insertEntry key s' cache') := by
  change List.Forall₂ _ cache cache' at alike
  induction alike with
  | nil => exact .cons ⟨rfl, seen⟩ .nil
  | @cons e e' rest rest' first more ih =>
    obtain ⟨name, held⟩ := e
    obtain ⟨name', held'⟩ := e'
    obtain ⟨rfl, seen'⟩ := first
    simp only [insertEntry]
    split
    · exact .cons ⟨rfl, seen⟩ more
    · split
      · exact .cons ⟨rfl, seen⟩ (.cons ⟨rfl, seen'⟩ more)
      · exact .cons ⟨rfl, seen'⟩ ih

/-- Worlds that differ in encrypted values alone, as far as clients of other services go. -/
structure World.SeenAlike (N : ν → ν' → Prop) (w : World ν) (w' : World ν') : Prop where
  verdicts : w.verdicts = w'.verdicts
  settings : CachesSeenAlike w.settings w'.settings
  network : N w.network w'.network

theorem introspect_alike (alike : NetworksSeenAlike N network network') (identity : Identity)
    (isValid : String → Bool) (endUsers organizations : Backing) (token : String) :
    Call.Alike (World.SeenAlike N)
      ((servicesOf network isValid endUsers organizations identity).introspect token)
      ((servicesOf network' isValid endUsers organizations identity).introspect token) := by
  intro w w' related
  obtain ⟨verdicts, caches, networks⟩ := related
  simp only [servicesOf, Backing.onVerdicts, Call.onPart, introspect_eq, remembered, verdicts]
  cases w'.verdicts.lookup token with
  | some verdict => exact ⟨rfl, rfl, caches, networks⟩
  | none =>
    obtain ⟨answer, left⟩ := freshVerdict_alike alike identity token _ _ networks
    simp only
    generalize freshVerdict network identity token w.network = x at answer left ⊢
    generalize freshVerdict network' identity token w'.network = y at answer left ⊢
    obtain ⟨result, n⟩ := x
    obtain ⟨result', n'⟩ := y
    simp only at answer left
    subst answer
    cases result with
    | ok verdict => exact ⟨rfl, rfl, caches, left⟩
    | error f => exact ⟨rfl, rfl, caches, left⟩

theorem memberships_alike (alike : NetworksSeenAlike N network network')
    (isValid : String → Bool) (endUsers : Client) (organizations : Backing) (identity : Identity)
    (caller : Caller) (id : String) (cancelled : Bool) :
    Call.Alike (World.SeenAlike N)
      ((servicesOf network isValid (.client endUsers) organizations identity).memberships caller id
        cancelled)
      ((servicesOf network' isValid (.client endUsers) organizations identity).memberships caller id
        cancelled) := by
  intro w w' related
  obtain ⟨answer, left⟩ := getJson_alike alike endUsers User.format caller
    ["private", "users", id, "memberships"] cancelled (fun _ _ bodies => bodies.user) _ _
    related.network
  exact ⟨answer, related.verdicts, related.settings, left⟩

theorem settings_seenAlike (alike : NetworksSeenAlike N network network')
    (isValid : String → Bool) (endUsers : Backing) (organizations : Client) (identity : Identity)
    (caller : Caller) (tenantId : String) (cancelled : Bool) {w : World ν} {w' : World ν'}
    (related : World.SeenAlike N w w') :
    AnswersSeenAlike
        ((servicesOf network isValid endUsers (.client organizations) identity).settings caller
          tenantId cancelled w).1
        ((servicesOf network' isValid endUsers (.client organizations) identity).settings caller
          tenantId cancelled w').1 ∧
      World.SeenAlike N
        ((servicesOf network isValid endUsers (.client organizations) identity).settings caller
          tenantId cancelled w).2
        ((servicesOf network' isValid endUsers (.client organizations) identity).settings caller
          tenantId cancelled w').2 := by
  obtain ⟨verdicts, caches, networks⟩ := related
  simp only [servicesOf, Backing.settings, Backing.onSettings, Call.onPart, fetchSettings,
    remembered]
  have held := lookup_seenAlike caches tenantId
  generalize w.settings.lookup tenantId = found at held ⊢
  generalize w'.settings.lookup tenantId = found' at held ⊢
  cases held with
  | some seen => exact ⟨.settings seen, verdicts, caches, networks⟩
  | none =>
    obtain ⟨answer, left⟩ := getJson_settings_seenAlike alike organizations caller
      ["private", "organizations", tenantId, "settings"] cancelled networks
    simp only
    generalize organizations.getJson network Settings.format caller
      ["private", "organizations", tenantId, "settings"] cancelled w.network = x at answer left ⊢
    generalize organizations.getJson network' Settings.format caller
      ["private", "organizations", tenantId, "settings"] cancelled w'.network = y at answer left ⊢
    obtain ⟨result, n⟩ := x
    obtain ⟨result', n'⟩ := y
    cases answer with
    | settings seen =>
      exact ⟨.settings seen, verdicts, insertEntry_seenAlike caches seen tenantId, left⟩
    | failure f => exact ⟨.failure f, verdicts, caches, left⟩

theorem servicesOf_seenAlike (alike : NetworksSeenAlike N network network')
    (isValid : String → Bool) (endUsers organizations : Client) (identity : Identity) :
    Services.SeenAlike (World.SeenAlike N)
      (servicesOf network isValid (.client endUsers) (.client organizations) identity)
      (servicesOf network' isValid (.client endUsers) (.client organizations) identity) where
  introspect := introspect_alike alike identity isValid _ _
  memberships := memberships_alike alike isValid endUsers _ identity
  settings caller tenantId cancelled _ _ :=
    settings_seenAlike alike isValid _ organizations identity caller tenantId cancelled
  isValid := rfl

end Service

end TenantGate
