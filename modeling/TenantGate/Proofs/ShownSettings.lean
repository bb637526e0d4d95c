import TenantGate.Proofs.Checkpoints
import TenantGate.Proofs.JsonLaws
import TenantGate.Proofs.MaskedServices
import TenantGate.Proofs.Runs
import TenantGate.Proofs.SettingsRoute

/-!
What the operation for an organization's settings shows of them: who is shown what under which
path, with every name, every value that is not encrypted and no other one.
-/
namespace TenantGate

open Gate Api

variable {σ τ : Type}

namespace Api

/-- Reads the organization of an answer, with the names and values as they stand in the text. -/
def OrganizationSettings.asWritten : Json.Format (String × List (String × String) × Unit) :=
  Json.Format.record "GetOrganizationSettingsResponse"
    (.field "organizationId" .required (fun _ => false) .string <|
      .field "settings" .required (fun _ => false) (.members .string) .none)

theorem OrganizationSettings.readWhole_asWritten (shown : OrganizationSettings) :
    asWritten.readWhole (format.write shown) = .ok (shown.organizationId, shown.settings, ()) := by
  have text (s : String) :
      Json.Takes Json.Format.string.read (Utf8.encode (Json.Format.string.write s)) s :=
    Json.lawful_string.takes trivial (Json.lawful_string.written trivial)
  have members : Json.Takes (Json.Format.members .string).read
      (Utf8.encode ((Json.Format.members .string).write shown.settings)) shown.settings :=
    Json.takes_written_members fun m _ => text m.2
  have written : format.write shown =
      asWritten.write (shown.organizationId, shown.settings, ()) := by
    simp only [format, asWritten, Json.Format.map, Json.Format.record, Json.Fields.write, id,
      Bool.false_eq_true, ↓reduceIte]
  have different : "settings" ≠ "organizationId" := by decide
  rw [written]
  apply Json.readWhole_written
  apply Json.takes_written_record _ (by decide)
  · exact List.forall_mem_cons.mpr ⟨.inl ⟨rfl, text _⟩,
      List.forall_mem_singleton.mpr (.inr ⟨different, .inl ⟨rfl, members⟩⟩)⟩
  · change ["organizationId", "settings"].Nodup
    decide
  · exact ⟨.inl List.mem_cons_self, .inl (List.mem_cons_of_mem _ List.mem_cons_self), trivial⟩

end Api

namespace Resolver

variable {isValid : String → Bool} {answers : Answers} {caller : Caller} {detection : Detection}
  {made : List Event} {result : Except Failure Outcome} {t : String} {s : Settings}

theorem forwardWith_of_settings {caller' : Caller}
    (rule : Decides isValid answers caller detection made result)
    (looked : .settings caller' t (.ok s) ∈ made) :
    caller' = caller ∧ result = .ok (.forwardWith ⟨t, s⟩) ∧
      ∀ t', detection.tenantId = some t' → t = t' := by
  have last {c : Caller} {t' : String}
      (same : Event.settings caller' t (.ok s) = .settings c t' (answers.settings t')) :
      caller' = c ∧ t = t' ∧ hydrated t' (answers.settings t') = .ok (.forwardWith ⟨t, s⟩) := by
    obtain ⟨rfl, rfl, answer⟩ := Event.settings.inj same
    exact ⟨rfl, rfl, hydrated_eq_iff.mpr ⟨rfl, answer.symm⟩⟩
  cases rule with
  | anonymousMissing | anonymousForward | invalid | authenticatedForward =>
    exact absurd looked (by simp)
  | notMember | noSoleDefault | memberFailed | defaultFailed =>
    exact absurd (List.mem_singleton.mp looked) (by simp)
  | anonymousTenant required valid =>
    obtain ⟨rfl, rfl, ends⟩ := last (List.mem_singleton.mp looked)
    exact ⟨rfl, ends, fun t' named => Option.some.inj named⟩
  | member required valid found member =>
    rcases List.mem_cons.mp looked with first | later
    · exact absurd first (by simp)
    · obtain ⟨rfl, rfl, ends⟩ := last (List.mem_singleton.mp later)
      exact ⟨rfl, ends, fun t' named => Option.some.inj named⟩
  | soleDefault found sole =>
    rcases List.mem_cons.mp looked with first | later
    · exact absurd first (by simp)
    · obtain ⟨rfl, rfl, ends⟩ := last (List.mem_singleton.mp later)
      exact ⟨rfl, ends, fun t' named => absurd named (by simp)⟩

end Resolver

namespace Gate

open Http

theorem no_settings_asked (services : Services σ) (headers : List Http.Header) (site : Site σ)
    (caller : Caller) (t : String) (answer : Except Failure Settings) :
    .settings caller t answer ∉ asked services headers site := by
  unfold asked
  split <;> simp

theorem tenantId_of_segment {inbound : Inbound} {d : Descriptor} {v : String}
    (values : inbound.values = .ok [("organization_id", v)]) (named : Text.trim v ≠ "") :
    (detectionOf d inbound).tenantId = some (Text.trim v) := by
  have value : Text.nonBlank? v = some (Text.trim v) := by
    have full : ¬ (Text.trim v).isEmpty = true := by
      rw [String.isEmpty_iff]
      exact named
    rw [Text.nonBlank?, if_neg full]
  simp only [detectionOf, Detective.detect, values, Except.toOption, Option.getD_some,
    Detective.fromRoute]
  have found : List.lookup Detective.routeValue [("organization_id", v)] = some v := rfl
  rw [found, Option.bind_some, value, Option.some_or]

/-- A request for which settings are looked up gets to the handler of its operation with them. -/
theorem handler_of_hydrated {table : RouteTable} {services : Services σ} {took : Durations}
    {e : Entry (Handler σ)} {inbound : Inbound} {site : Site σ} {ending : Ending σ}
    (ends : Ends table services took e inbound site ending) {caller : Caller} {t : String}
    {s : Settings} (hydrated : .settings caller t (.ok s) ∈ ending.events) :
    ∃ known after, callerOf services.introspect inbound.request.headers site = (.ok caller, known) ∧
      (e.contract.access = .token → caller ≠ .anonymous) ∧
      (∀ t', (detectionOf e.descriptor inbound).tenantId = some t' → t = t') ∧
      ending.response =
        (e.handler ((inbound.withCaller caller).withSlot ⟨some ⟨t, s⟩⟩) after).1 := by
  have unasked := no_settings_asked services inbound.request.headers site caller t (.ok s)
  cases ends with
  | authentication unknown => exact absurd hydrated unasked
  | access known guarded => exact absurd hydrated unasked
  | tenancy resolved left =>
    obtain ⟨_, _, result, rule, settled⟩ := resolved
    rcases List.mem_append.mp hydrated with before | looked
    · exact absurd before unasked
    · obtain ⟨_, rfl, _⟩ := Resolver.forwardWith_of_settings rule looked
      cases settled
  | @handler caller' known after made inbound' resolved left =>
    obtain ⟨called, may, result, rule, settled⟩ := resolved
    have looked : .settings caller t (.ok s) ∈ made := by
      rcases List.mem_append.mp hydrated with before | handled
      · exact (List.mem_append.mp before).resolve_left unasked
      · exact absurd (List.mem_singleton.mp handled) (by simp)
    obtain ⟨rfl, rfl, names⟩ := Resolver.forwardWith_of_settings rule looked
    cases settled
    exact ⟨known, after, called, may, names, rfl⟩

section Shown

variable {testing : Bool} {registry : Registry (Handler σ)} {services : Services σ}
  {took : Durations} {request : Http.Request} {segment : List UInt8} {site : Site σ}

theorem settings_ends (registered : registeredOperations testing = .ok registry)
    (services : Services σ) (took : Durations) (asks : request.method = .get)
    (path : request.uri.path = settingsPath segment) (single : 0x2F ∉ segment) (site : Site σ) :
    ∃ ending, Ends registry.table services took settingsEntry (settingsInbound request segment) site
        ending ∧
      Host.serve registry services took request site =
        (Host.finished request ending.response, ending.site) ∧
      servedEvents registry services took request site = ending.events := by
  have requested := operationFor?_settings registered asks path single
  obtain ⟨_, e, member, filed, _, ending, ends, served, events, _⟩ :=
    served_ends (Built.empty.registerAll registered) services took requested site
  obtain rfl := eq_settingsEntry member (congrArg Mount.path filed)
  exact ⟨ending, ends, served, events⟩

/-- What is answered with success while every service answers shows settings that were looked up. -/
theorem settings_looked_up (registered : registeredOperations testing = .ok registry)
    (asks : request.method = .get) (path : request.uri.path = settingsPath segment)
    (single : 0x2F ∉ segment)
    (answered : (Host.serve registry services took request site).1.status = .ok)
    (answers : ∀ x ∈ servedEvents registry services took request site, x.failure? = none) :
    ∃ caller t s, .settings caller t (.ok s) ∈ servedEvents registry services took request site := by
  obtain ⟨ending, ends, served, events⟩ :=
    settings_ends registered services took asks path single site
  rw [events] at answers ⊢
  rw [served, Host.finished_status] at answered
  cases ends with
  | authentication unknown =>
    -- a service may fail with any status, success included, so only this rules its failures out
    rcases unknown_callerOf unknown with ⟨message, rfl⟩ | ⟨token, only⟩
    · have status : Http.Status.unauthorized = .ok := answered
      exact absurd status (by decide)
    · have failed := answers (.introspection token (.error _)) (by
        rw [only]
        exact List.mem_singleton_self _)
      exact absurd failed (by simp [Event.failure?])
  | access known guarded =>
    have status : Http.Status.unauthorized = .ok := answered
    exact absurd status (by decide)
  | tenancy resolved left =>
    obtain ⟨_, _, result, rule, settled⟩ := resolved
    cases settled with
    | reject r =>
      have answered : (Problem.ofRejection r).respond.status = .ok := answered
      rcases rejection_status r with status | status
      · exact absurd (answered.symm.trans status) (by decide)
      · exact absurd (answered.symm.trans status) (by decide)
    | failed f =>
      obtain ⟨x, among, _, failed⟩ := failed_of_result rule rfl
      rw [answers x (List.mem_append_right _ among)] at failed
      exact absurd failed (by simp)
  | @handler caller s after made inbound' resolved left =>
    obtain ⟨_, _, result, rule, settled⟩ := resolved
    cases settled with
    | forward =>
      have required : (detectionOf (settingsEntry : Entry (Handler σ)).descriptor
        (settingsInbound request segment)).required = true := rfl
      rw [Resolver.detection_of_forward rule rfl] at required
      exact absurd required (by decide)
    | forwardWith tenancy =>
      have looked := Resolver.settings_of_forwardWith rule rfl
      exact ⟨caller, tenancy.tenantId, tenancy.settings,
        List.mem_append_left _ (List.mem_append_right _ looked)⟩

/-- What is answered with success shows the settings that were looked up, under the organization in
the path, to a caller who is known. -/
theorem settings_are_shown (registered : registeredOperations testing = .ok registry)
    (asks : request.method = .get) (path : request.uri.path = settingsPath segment)
    (single : 0x2F ∉ segment)
    (answered : (Host.serve registry services took request site).1.status = .ok) {caller : Caller}
    {t : String} {s : Settings}
    (hydrated : .settings caller t (.ok s) ∈ servedEvents registry services took request site) :
    ∃ c after v,
      caller = .authenticated c ∧
      callerOf services.introspect request.headers site = (.ok (.authenticated c), after) ∧
      Utf8.decode? (Text.percentDecode segment) = some v ∧
      (Text.trim v ≠ "" → t = Text.trim v) ∧
      (Host.serve registry services took request site).1.body =
        OrganizationSettings.format.write (.ofTenancy ⟨t, s⟩) := by
  obtain ⟨ending, ends, served, events⟩ :=
    settings_ends registered services took asks path single site
  rw [events] at hydrated
  obtain ⟨known, after, called, may, names, response⟩ := handler_of_hydrated ends hydrated
  have kept : ¬ request.method = .head := by
    rw [asks]
    decide
  rw [served, Host.finished_status] at answered
  rw [served, Host.finished_body, if_neg kept]
  have unguarded : caller ≠ .anonymous := may rfl
  cases caller with
  | anonymous => exact absurd rfl unguarded
  | authenticated c =>
    let final := ((settingsInbound request segment).withCaller (.authenticated c)).withSlot
      ⟨some ⟨t, s⟩⟩
    have values : final.values = decodeValues [("organization_id", segment)] := rfl
    cases read : Utf8.decode? (Text.percentDecode segment) with
    -- a path that is no text gets this far, as the tenant may be named elsewhere
    | none =>
      have unreadable : final.values = .error "organization_id" := by
        rw [values, decodeValues, read]
      have refused := organizationSettings_unreadable unreadable after
      have status : Http.Status.ok = .badRequest :=
        (answered.symm.trans (congrArg (·.status) response)).trans
          (congrArg (fun x => x.1.status) refused)
      exact absurd status (by decide)
    | some v =>
      have good : final.values = .ok [("organization_id", v)] := by
        rw [values, decodeValues, read]
        rfl
      have held : final.extensions.tenancy? = some ⟨t, s⟩ := rfl
      have shown := organizationSettings_shown good held after
      refine ⟨c, known, v, rfl, called, rfl, ?_, ?_⟩
      · intro named
        exact names _ (tenantId_of_segment (values.symm.trans good) named)
      · exact (congrArg (·.body) response).trans (congrArg (fun x => x.1.body) shown)

end Shown

/-- The operation for the settings of an organization keeps what is encrypted to itself, and nothing
else. An answer with success shows settings that were looked up for a known caller: all their names,
with a mask for what is encrypted and with the value for everything else. Hosts whose services differ
in encrypted values alone give the same answers, and so do hosts whose clients read them from other
services and remember them. -/
theorem encrypted_values_are_hidden {testing : Bool} {registry : Registry (Handler σ)}
    (registered : registeredOperations testing = .ok registry) :
    (∀ (services : Services σ) (took : Durations) (request : Http.Request) (segment : List UInt8)
        (site : Site σ), request.method = .get → request.uri.path = settingsPath segment →
      0x2F ∉ segment → (Host.serve registry services took request site).1.status = .ok →
      ((∀ x ∈ servedEvents registry services took request site, x.failure? = none) →
        ∃ caller t s,
          .settings caller t (.ok s) ∈ servedEvents registry services took request site) ∧
      ∀ caller t s, .settings caller t (.ok s) ∈ servedEvents registry services took request site →
        ∃ c after v,
          caller = .authenticated c ∧
          callerOf services.introspect request.headers site = (.ok (.authenticated c), after) ∧
          Utf8.decode? (Text.percentDecode segment) = some v ∧
          (Text.trim v ≠ "" → t = Text.trim v) ∧
          OrganizationSettings.asWritten.readWhole
              (Host.serve registry services took request site).1.body =
            .ok (t, s.entries.map fun (name, setting) =>
              (name, if setting.isEncrypted then maskedValue else setting.value), ())) ∧
    (∀ {τ : Type} {registry' : Registry (Handler τ)},
      registeredOperations testing = .ok registry' →
      ∀ {R : σ → τ → Prop} {services : Services σ} {services' : Services τ},
        Services.SeenAlike R services services' →
        ∀ (took : Durations) (request : Http.Request) {site : Site σ} {site' : Site τ},
          Site.Alike R site site' →
          (Host.serve registry services took request site).1 =
              (Host.serve registry' services' took request site').1 ∧
            Site.Alike R (Host.serve registry services took request site).2
              (Host.serve registry' services' took request site').2) ∧
    ∀ {ν ν' : Type} {N : ν → ν' → Prop} {network : Net.Network ν} {network' : Net.Network ν'},
      Service.NetworksSeenAlike N network network' →
      ∀ (isValid : String → Bool) (endUsers organizations : Service.Client)
        (identity : Service.Identity),
        Services.SeenAlike (Service.World.SeenAlike N)
          (Service.servicesOf network isValid (.client endUsers) (.client organizations) identity)
          (Service.servicesOf network' isValid (.client endUsers) (.client organizations)
            identity) := by
  refine ⟨?_, ?_, ?_⟩
  · intro services took request segment site asks path single answered
    refine ⟨settings_looked_up registered asks path single answered, ?_⟩
    intro caller t s hydrated
    obtain ⟨c, after, v, known, called, read, named, body⟩ :=
      settings_are_shown registered asks path single answered hydrated
    refine ⟨c, after, v, known, called, read, named, ?_⟩
    rw [body]
    exact OrganizationSettings.readWhole_asWritten (.ofTenancy ⟨t, s⟩)
  · intro τ registry' registered' R services services' alike took request site site' related
    exact serve_seenAlike registered registered' alike took request related
  · intro ν ν' N network network' alike isValid endUsers organizations identity
    exact Service.servicesOf_seenAlike alike isValid endUsers organizations identity

def secretSettings (secret : String) : Settings :=
  ⟨[("apikey", ⟨secret, true⟩), ("color", ⟨"blue", false⟩)]⟩

def secretServices (secret : String) : Services Unit :=
  { memberServices with settings := fun _ _ _ => .done (secretSettings secret) }

theorem secretServices_seenAlike (secret secret' : String) :
    Services.SeenAlike Eq (secretServices secret) (secretServices secret') := by
  refine ⟨?_, ?_, ?_, rfl⟩
  · rintro token t s rfl
    exact ⟨rfl, rfl⟩
  · rintro caller id cancelled t s rfl
    exact ⟨rfl, rfl⟩
  · rintro caller tenantId cancelled t s rfl
    refine ⟨.settings ?_, rfl⟩
    exact .cons ⟨rfl, rfl, by simp⟩ (.cons ⟨rfl, rfl, fun _ => rfl⟩ .nil)

def Event.hydrated? : Event → Option (Caller × String × Settings)
  | .settings caller t (.ok s) => some (caller, t, s)
  | _ => none

/-- A member of an organization is shown the plain setting and no secret, whichever it is. -/
theorem member_is_shown_no_secret :
    registeredOperations false = .ok hostRegistry ∧
      (Host.serve hostRegistry (secretServices "hunter2") .instant memberVisit.request
        freshSite).1.status = .ok ∧
      OrganizationSettings.asWritten.readWhole
          (Host.serve hostRegistry (secretServices "hunter2") .instant memberVisit.request
            freshSite).1.body =
        .ok ("org1", [("apikey", "********"), ("color", "blue")], ()) ∧
      (Host.serve hostRegistry (secretServices "hunter2") .instant memberVisit.request
          freshSite).1 =
        (Host.serve hostRegistry (secretServices "s3cret") .instant memberVisit.request
          freshSite).1 := by
  have registered : registeredOperations false = .ok hostRegistry := rfl
  obtain ⟨shown, hidden, _⟩ := encrypted_values_are_hidden registered
  have answered : (Host.serve hostRegistry (secretServices "hunter2") .instant memberVisit.request
      freshSite).1.status = .ok := by decide +kernel
  have looked : ((servedEvents hostRegistry (secretServices "hunter2") .instant
      memberVisit.request freshSite).filterMap Event.hydrated?).contains
      (.authenticated "u1", "org1", secretSettings "hunter2") = true := by decide +kernel
  obtain ⟨event, happened, hydrated⟩ :=
    List.mem_filterMap.mp (List.contains_iff_mem.mp looked)
  have path : memberVisit.request.uri.path = settingsPath (Utf8.encode "org1") := by
    decide +kernel
  obtain ⟨_, shown⟩ := shown (secretServices "hunter2") .instant memberVisit.request
    (Utf8.encode "org1") freshSite rfl path (by decide +kernel) answered
  refine ⟨registered, answered, ?_, ?_⟩
  · cases event with
    | settings caller t answer =>
      cases answer with
      | error f => exact absurd hydrated (by simp [Event.hydrated?])
      | ok s =>
        obtain ⟨rfl, rfl, rfl⟩ : caller = .authenticated "u1" ∧ t = "org1" ∧
            s = secretSettings "hunter2" := by
          simpa [Event.hydrated?] using hydrated
        obtain ⟨_, _, _, _, _, _, _, read⟩ := shown _ _ _ happened
        exact read
    | _ => exact absurd hydrated (by simp [Event.hydrated?])
  · exact (hidden registered (secretServices_seenAlike "hunter2" "s3cret") .instant
      memberVisit.request ⟨rfl, rfl, rfl, rfl⟩).1

end Gate

end TenantGate
