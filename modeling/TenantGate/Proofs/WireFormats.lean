import TenantGate.Api.Operations
import TenantGate.Api.Problem
import TenantGate.Auth.Bearer
import TenantGate.Proofs.JsonLaws
import TenantGate.Telemetry.Views
import TenantGate.Tenant.Tenancy

/-!
The formats on the wire. For each there is the shape of its texts and the document of a value. What
is written presents the document, every text that presents it is read as the value, and a text that
repeats a field of a record is refused.
-/
namespace TenantGate

open Json Utf8

variable {α : Type}

/-- The names of the entries ascend, which is how a map keeps them. -/
def Ascending (entries : List (String × α)) : Prop :=
  entries.Pairwise fun e e' => e.1 < e'.1

section Ascending

theorem insertEntry_perm {name : String} {value : α} {entries : List (String × α)}
    (fresh : name ∉ entries.map Prod.fst) :
    (insertEntry name value entries).Perm ((name, value) :: entries) := by
  induction entries with
  | nil => exact .refl _
  | cons entry more ih =>
    rw [List.map_cons, List.mem_cons, not_or] at fresh
    have other : ¬ (name == entry.1) = true := by simpa using fresh.1
    simp only [insertEntry, if_neg other]
    split
    · exact .refl _
    · exact ((ih fresh.2).cons entry).trans (.swap _ _ more)

theorem mem_of_insertEntry {name : String} {value : α} {entries : List (String × α)}
    {e : String × α} (among : e ∈ insertEntry name value entries) :
    e = (name, value) ∨ e ∈ entries := by
  induction entries with
  | nil => exact .inl (List.mem_singleton.mp among)
  | cons entry more ih =>
    simp only [insertEntry] at among
    split at among
    · exact (List.mem_cons.mp among).imp_right (List.mem_cons_of_mem entry)
    split at among
    · exact List.mem_cons.mp among
    · rcases List.mem_cons.mp among with rfl | later
      · exact .inr List.mem_cons_self
      · exact (ih later).imp_right (List.mem_cons_of_mem entry)

theorem insertEntry_ascending {name : String} {value : α} {entries : List (String × α)}
    (ascending : Ascending entries) : Ascending (insertEntry name value entries) := by
  induction entries with
  | nil => exact List.pairwise_singleton _ _
  | cons entry more ih =>
    obtain ⟨above, later⟩ := List.pairwise_cons.mp ascending
    simp only [insertEntry]
    split
    · rename_i same
      obtain rfl : name = entry.1 := by simpa using same
      exact List.pairwise_cons.mpr ⟨above, later⟩
    rename_i other
    split
    · rename_i below
      refine List.pairwise_cons.mpr ⟨List.forall_mem_cons.mpr ⟨below, fun e among => ?_⟩, ascending⟩
      exact String.lt_trans below (above e among)
    · rename_i notBelow
      have below : entry.1 < name :=
        Std.lt_of_le_of_ne (String.not_lt.mp notBelow) fun same => other (by simp [same])
      refine List.pairwise_cons.mpr ⟨fun e among => ?_, ih later⟩
      rcases mem_of_insertEntry among with rfl | old
      · exact below
      · exact above e old

theorem foldl_insertEntry {given entries kept : List (String × α)}
    (order : (kept ++ given).Perm entries) (distinct : (entries.map Prod.fst).Nodup)
    (ascending : Ascending kept) :
    Ascending (given.foldl (fun read entry => insertEntry entry.1 entry.2 read) kept) ∧
      (given.foldl (fun read entry => insertEntry entry.1 entry.2 read) kept).Perm entries := by
  induction given generalizing kept with
  | nil =>
    rw [List.append_nil] at order
    exact ⟨ascending, order⟩
  | cons entry given ih =>
    have names := (order.map Prod.fst).nodup_iff.mpr distinct
    have fresh : entry.1 ∉ kept.map Prod.fst := by
      intro held
      rw [List.map_append, List.map_cons] at names
      exact (List.nodup_cons.mp (List.perm_middle.nodup_iff.mp names)).1
        (List.mem_append_left _ held)
    have moved : (insertEntry entry.1 entry.2 kept ++ given).Perm (kept ++ entry :: given) :=
      ((insertEntry_perm fresh).append_right given).trans List.perm_middle.symm
    exact ih (moved.trans order) (insertEntry_ascending ascending)

theorem Ascending.distinct {entries : List (String × α)} (ascending : Ascending entries) :
    (entries.map Prod.fst).Nodup := by
  rw [List.Nodup, List.pairwise_map]
  refine ascending.imp fun below same => ?_
  rw [same] at below
  exact String.lt_irrefl _ below

theorem foldl_of_perm {given entries : List (String × α)} (ascending : Ascending entries)
    (order : given.Perm entries) :
    given.foldl (fun read entry => insertEntry entry.1 entry.2 read) [] = entries := by
  obtain ⟨ascends, perm⟩ := @foldl_insertEntry α given entries [] order ascending.distinct .nil
  refine List.Perm.eq_of_pairwise ?_ ascends ascending perm
  intro e e' _ _ below above
  exact absurd above (String.lt_asymm below)

end Ascending

theorem hides_nothing {absence : Absence α} (a : α) (hidden : (fun _ : α => false) a = true) :
    absence.value? = some a :=
  absurd hidden Bool.false_ne_true

def textOrNull (s? : Option String) : Document := (s?.map .text).getD .null

theorem lawful_textOrNull :
    (Format.optional .string).Lawful .scalar textOrNull fun s? => ∀ s ∈ s?, True :=
  lawful_optional lawful_string fun _ => nofun

section Tenants

def Membership.shape : Shape :=
  .record [("id", .scalar), ("userId", .scalar), ("organizationId", .scalar),
    ("isDefault", .scalar)]

def Membership.document (m : Membership) : Document :=
  .object [("id", .text m.id), ("userId", .text m.userId),
    ("organizationId", .text m.organizationId), ("isDefault", .boolean m.isDefault)]

theorem Membership.lawful : format.Lawful shape document fun _ => True := by
  refine lawful_map (lawful_record "Membership"
    (.field lawful_string hides_nothing <| .field lawful_string hides_nothing <|
      .field lawful_string hides_nothing <| .field lawful_boolean hides_nothing .none)
    (by decide)) (fun _ => rfl) ?_
  intro m _
  exact ⟨⟨trivial, trivial, trivial, trivial, trivial⟩, rfl⟩

def User.shape : Shape := .record [("id", .scalar), ("memberships", .list Membership.shape)]

def User.document (u : User) : Document :=
  .object [("id", .text u.id), ("memberships", .list (u.memberships.map Membership.document))]

theorem User.lawful : format.Lawful shape document fun _ => True := by
  refine lawful_map (lawful_record "EndUserWithMemberships"
    (.field lawful_string hides_nothing <|
      .field (lawful_list Membership.lawful) hides_nothing .none)
    (by decide)) (fun _ => rfl) ?_
  intro u _
  exact ⟨⟨trivial, fun _ _ => trivial, trivial⟩, rfl⟩

def Setting.shape : Shape := .record [("value", .scalar), ("isEncrypted", .scalar)]

def Setting.document (s : Setting) : Document :=
  .object [("value", .text s.value), ("isEncrypted", .boolean s.isEncrypted)]

theorem Setting.lawful : format.Lawful shape document fun _ => True := by
  refine lawful_map (lawful_record "TenantSetting"
    (.field lawful_string hides_nothing <| .field lawful_boolean hides_nothing .none)
    (by decide)) (fun _ => rfl) ?_
  intro s _
  exact ⟨⟨trivial, trivial, trivial⟩, rfl⟩

def Settings.shape : Shape := .map Setting.shape

def Settings.document (s : Settings) : Document :=
  .object (s.entries.map fun e => (e.1, e.2.document))

def Settings.Ordered (s : Settings) : Prop := Ascending s.entries

theorem Settings.ofEntries_eq (entries : List (String × Setting)) :
    ofEntries entries =
      ⟨entries.foldl (fun read entry => insertEntry entry.1 entry.2 read) []⟩ := by
  have folded (kept : List (String × Setting)) :
      entries.foldl (fun (settings : Settings) entry => settings.insert entry.1 entry.2) ⟨kept⟩ =
        ⟨entries.foldl (fun read entry => insertEntry entry.1 entry.2 read) kept⟩ := by
    induction entries generalizing kept with
    | nil => rfl
    | cons entry entries ih => exact ih _
  exact folded []

theorem Settings.lawful : format.Lawful shape document Ordered := by
  refine lawful_members Setting.lawful (fun _ _ _ _ => trivial) fun s ordered members perm => ?_
  rw [ofEntries_eq, foldl_of_perm ordered perm]

def Tenancy.shape : Shape := .record [("tenantId", .scalar), ("settings", Settings.shape)]

def Tenancy.document (t : Tenancy) : Document :=
  .object [("tenantId", .text t.tenantId), ("settings", t.settings.document)]

theorem Tenancy.lawful : format.Lawful shape document fun t => t.settings.Ordered := by
  refine lawful_map (lawful_record "ResolvedTenancy"
    (.field lawful_string hides_nothing <| .field Settings.lawful hides_nothing .none)
    (by decide)) (fun _ => rfl) ?_
  intro t ordered
  exact ⟨⟨trivial, ordered, trivial⟩, rfl⟩

end Tenants

namespace Auth

def IntrospectionRequest.shape : Shape := .record [("token", .scalar)]

def IntrospectionRequest.document (r : IntrospectionRequest) : Document :=
  .object [("token", .text r.token)]

theorem IntrospectionRequest.lawful : format.Lawful shape document fun _ => True := by
  refine lawful_map (lawful_record "IntrospectionRequest"
    (.field lawful_string hides_nothing .none) (by decide)) (fun _ => rfl) ?_
  intro r _
  exact ⟨⟨trivial, trivial⟩, rfl⟩

def Introspection.shape : Shape := .record [("active", .scalar), ("sub", .scalar)]

def Introspection.document (i : Introspection) : Document :=
  .object [("active", .boolean i.active), ("sub", textOrNull i.subject)]

theorem Introspection.lawful : format.Lawful shape document fun _ => True := by
  refine lawful_map (lawful_record "IntrospectionResponse"
    (.field lawful_boolean hides_nothing <| .field lawful_textOrNull hides_nothing .none)
    (by decide)) (fun _ => rfl) ?_
  intro i _
  exact ⟨⟨trivial, fun _ _ => trivial, trivial⟩, rfl⟩

end Auth

namespace Api

def ProblemDocument.shape : Shape :=
  .record [("type", .scalar), ("title", .scalar), ("status", .scalar), ("detail", .scalar),
    ("code", .scalar), ("errors", .list .scalar)]

/-- The broken rules are only there when there are some. -/
def ProblemDocument.document (d : ProblemDocument) : Document :=
  .object ([("type", .text d.type), ("title", .text d.title), ("status", .number d.status),
    ("detail", .text d.detail), ("code", .text d.code)] ++
      (d.errors.map fun rules => ("errors", .list (rules.map .text))).toList)

theorem ProblemDocument.lawful : format.Lawful shape document fun d => d.status ≤ 65535 := by
  have rules := lawful_optional (lawful_list lawful_string) fun _ => nofun
  have hidden (rules? : Option (List String)) (none : rules?.isNone = true) :
      (Absence.nullable Option.none).value? = some rules? :=
    congrArg some (Option.isNone_iff_eq_none.mp none).symm
  refine lawful_map (lawful_record "ProblemDetails"
    (.field lawful_string hides_nothing <| .field lawful_string hides_nothing <|
      .field (lawful_natural "u16" (by decide)) hides_nothing <|
      .field lawful_string hides_nothing <| .field lawful_string hides_nothing <|
      .field rules hidden .none)
    (by decide)) ?_ ?_
  · intro d
    cases broken : d.errors <;> simp only [document, broken] <;> rfl
  · intro d fits
    exact ⟨⟨trivial, trivial, fits, trivial, trivial, fun _ _ _ _ => trivial, trivial⟩, rfl⟩

def CallReport.shape : Shape :=
  .record [("callerId", .scalar), ("tenantId", .scalar), ("settings", .scalar)]

def CallReport.document (r : CallReport) : Document :=
  .object [("callerId", textOrNull r.callerId), ("tenantId", textOrNull r.tenantId),
    ("settings", .number r.settings)]

theorem CallReport.lawful :
    format.Lawful shape document fun r => r.settings ≤ 0xFFFFFFFFFFFFFFFF := by
  refine lawful_map (lawful_record "TestingOnlyResponse"
    (.field lawful_textOrNull hides_nothing <| .field lawful_textOrNull hides_nothing <|
      .field (lawful_natural "usize" (by decide)) hides_nothing .none)
    (by decide)) (fun _ => rfl) ?_
  intro r fits
  exact ⟨⟨fun _ _ => trivial, fun _ _ => trivial, fits, trivial⟩, rfl⟩

def OrganizationSettings.shape : Shape :=
  .record [("organizationId", .scalar), ("settings", .map .scalar)]

def OrganizationSettings.document (o : OrganizationSettings) : Document :=
  .object [("organizationId", .text o.organizationId),
    ("settings", .object (o.settings.map fun e => (e.1, .text e.2)))]

theorem OrganizationSettings.lawful :
    format.Lawful shape document fun o => Ascending o.settings := by
  refine lawful_map (lawful_record "GetOrganizationSettingsResponse"
    (.field lawful_string hides_nothing <|
      .field (lawful_members lawful_string (fun _ _ _ _ => trivial)
        fun entries (ascending : Ascending entries) members perm => foldl_of_perm ascending perm)
        hides_nothing .none)
    (by decide)) (fun _ => rfl) ?_
  intro o ascending
  exact ⟨⟨trivial, ascending, trivial⟩, rfl⟩

end Api

namespace Telemetry

def ComponentReport.shape : Shape :=
  .record [("name", .scalar), ("healthy", .scalar), ("message", .scalar)]

def ComponentReport.document (r : ComponentReport) : Document :=
  .object [("name", .text r.name), ("healthy", .boolean r.healthy),
    ("message", textOrNull r.message)]

theorem ComponentReport.lawful : format.Lawful shape document fun _ => True := by
  refine lawful_map (lawful_record "ComponentHealthReport"
    (.field lawful_string hides_nothing <| .field lawful_boolean hides_nothing <|
      .field lawful_textOrNull hides_nothing .none)
    (by decide)) (fun _ => rfl) ?_
  intro r _
  exact ⟨⟨trivial, trivial, fun _ _ => trivial, trivial⟩, rfl⟩

theorem HealthStatus.lawful :
    format.Lawful .scalar (fun s => .text s.wireName) fun _ => True := by
  refine lawful_alternatives "enum HealthStatus" fun s => ?_
  cases s <;> decide

def HealthReport.shape : Shape :=
  .record [("status", .scalar), ("components", .list ComponentReport.shape)]

def HealthReport.document (r : HealthReport) : Document :=
  .object [("status", .text r.status.wireName),
    ("components", .list (r.components.map ComponentReport.document))]

theorem HealthReport.lawful : format.Lawful shape document fun _ => True := by
  refine lawful_map (lawful_record "HealthReport"
    (.field HealthStatus.lawful hides_nothing <|
      .field (lawful_list ComponentReport.lawful) hides_nothing .none)
    (by decide)) (fun _ => rfl) ?_
  intro r _
  exact ⟨⟨trivial, fun _ _ => trivial, trivial⟩, rfl⟩

def HealthBody.shape : Shape :=
  .record [("status", .scalar), ("end_users_connected", .scalar),
    ("organizations_connected", .scalar), ("tenancies_resolved", .scalar),
    ("components", .list ComponentReport.shape)]

def HealthBody.document (b : HealthBody) : Document :=
  .object [("status", .text b.status), ("end_users_connected", .boolean b.endUsersConnected),
    ("organizations_connected", .boolean b.organizationsConnected),
    ("tenancies_resolved", .number b.tenanciesResolved),
    ("components", .list (b.components.map ComponentReport.document))]

theorem HealthBody.lawful :
    format.Lawful shape document fun b => b.tenanciesResolved ≤ 0xFFFFFFFFFFFFFFFF := by
  refine lawful_map (lawful_record "HealthResponse"
    (.field lawful_string hides_nothing <| .field lawful_boolean hides_nothing <|
      .field lawful_boolean hides_nothing <|
      .field (lawful_natural "u64" (by decide)) hides_nothing <|
      .field (lawful_list ComponentReport.lawful) hides_nothing .none)
    (by decide)) (fun _ => rfl) ?_
  intro b fits
  exact ⟨⟨trivial, trivial, trivial, fits, fun _ _ => trivial, trivial⟩, rfl⟩

end Telemetry

/-- The formats carry all values of their types, in any presentation: maps hold their entries in the
order of the names, and numbers are as large as the wire allows. -/
theorem wire_formats_carry_values :
    Membership.format.Carries Membership.shape Membership.document (fun _ => True) ∧
    User.format.Carries User.shape User.document (fun _ => True) ∧
    Setting.format.Carries Setting.shape Setting.document (fun _ => True) ∧
    Settings.format.Carries Settings.shape Settings.document Settings.Ordered ∧
    Tenancy.format.Carries Tenancy.shape Tenancy.document (fun t => t.settings.Ordered) ∧
    Auth.IntrospectionRequest.format.Carries Auth.IntrospectionRequest.shape
      Auth.IntrospectionRequest.document (fun _ => True) ∧
    Auth.Introspection.format.Carries Auth.Introspection.shape Auth.Introspection.document
      (fun _ => True) ∧
    Api.ProblemDocument.format.Carries Api.ProblemDocument.shape Api.ProblemDocument.document
      (fun d => d.status ≤ 65535) ∧
    Api.CallReport.format.Carries Api.CallReport.shape Api.CallReport.document
      (fun r => r.settings ≤ 0xFFFFFFFFFFFFFFFF) ∧
    Api.OrganizationSettings.format.Carries Api.OrganizationSettings.shape
      Api.OrganizationSettings.document (fun o => Ascending o.settings) ∧
    Telemetry.HealthReport.format.Carries Telemetry.HealthReport.shape
      Telemetry.HealthReport.document (fun _ => True) ∧
    Telemetry.HealthBody.format.Carries Telemetry.HealthBody.shape Telemetry.HealthBody.document
      (fun b => b.tenanciesResolved ≤ 0xFFFFFFFFFFFFFFFF) := by
  refine ⟨?_, ?_, ?_, ?_, ?_, ?_, ?_, ?_, ?_, ?_, ?_, ?_⟩
  · exact Membership.lawful.carries
  · exact User.lawful.carries
  · exact Setting.lawful.carries
  · exact Settings.lawful.carries
  · exact Tenancy.lawful.carries
  · exact Auth.IntrospectionRequest.lawful.carries
  · exact Auth.Introspection.lawful.carries
  · exact Api.ProblemDocument.lawful.carries
  · exact Api.CallReport.lawful.carries
  · exact Api.OrganizationSettings.lawful.carries
  · exact Telemetry.HealthReport.lawful.carries
  · exact Telemetry.HealthBody.lawful.carries

section Request

open Auth

def Json.Gap.of (b : UInt8) (space : isSpace b = true) : Gap :=
  ⟨[b], List.forall_mem_singleton.mpr space⟩

/-- The member `"to\u006ben" : "a"`. -/
def escapedMember : Member :=
  ⟨"token", .scalar, .text "a", ⟨.none, [.plain 't' rfl, .plain 'o' rfl,
    .number 0x30 0x30 0x36 0x62 0x6B (by decide), .plain 'e' rfl, .plain 'n' rfl],
    .of 0x20 rfl, ⟨.of 0x20 rfl, quoted [.plain 'a' rfl], .none⟩⟩⟩

/-- The member `"x":[null]`, which no request has. -/
def strangeEntry : Entry :=
  ⟨.none, [.plain 'x' rfl], .none, .bare (listBytes .none [.bare nullBytes])⟩

def escapedRequest : Padded :=
  ⟨.none, objectBytes .none [strangeEntry, escapedMember.entry], .of 0x0A rfl⟩

def repeatedRequest : Padded :=
  .bare (objectBytes .none [escapedMember.entry, strangeEntry, escapedMember.entry])

theorem escapedRequest_presents :
    Presents IntrospectionRequest.shape (IntrospectionRequest.document ⟨"a"⟩)
      escapedRequest.value := by
  refine @Presents.record _ .none [escapedMember] [strangeEntry] _ (.swap _ _ []) ?_ ?_ ?_
  · exact List.forall_mem_singleton.mpr ⟨by decide +kernel, List.mem_singleton.mpr rfl⟩
  · exact List.forall_mem_singleton.mpr (.text (by decide +kernel))
  · refine List.forall_mem_singleton.mpr ⟨"x", by decide +kernel, by decide, ?_⟩
    exact .list .none (List.forall_mem_singleton.mpr .null)

theorem repeatedRequest_repeats : Repeats IntrospectionRequest.shape repeatedRequest.value := by
  refine @Repeats.twice _ .none _ ?_ "token" (by decide) (by decide +kernel)
  have strange : WellFormed strangeEntry.value.value :=
    .list .none (List.forall_mem_singleton.mpr .null)
  exact List.forall_mem_cons.mpr ⟨.text _, List.forall_mem_cons.mpr ⟨strange,
    List.forall_mem_singleton.mpr (.text _)⟩⟩

/-- An escape in a name, a strange member and white space make no difference; a field given twice
does. -/
theorem escaped_request_is_read_and_repeated_refused :
    IntrospectionRequest.format.readBytes
        (encode "\x7b\"x\":[null],\"to\\u006ben\" : \"a\"\x7d\n") = .ok ⟨"a"⟩ ∧
      ∃ fault, IntrospectionRequest.format.readBytes (encode
        "\x7b\"to\\u006ben\" : \"a\",\"x\":[null],\"to\\u006ben\" : \"a\"\x7d") = .error fault := by
  have carries := wire_formats_carry_values.2.2.2.2.2.1
  have read := carries.portable ⟨"a"⟩ trivial escapedRequest escapedRequest_presents
  obtain ⟨fault, refused⟩ := carries.strict repeatedRequest repeatedRequest_repeats
  have escaped : escapedRequest.bytes =
      encode "\x7b\"x\":[null],\"to\\u006ben\" : \"a\"\x7d\n" := by
    decide +kernel
  have repeated : repeatedRequest.bytes = encode
      "\x7b\"to\\u006ben\" : \"a\",\"x\":[null],\"to\\u006ben\" : \"a\"\x7d" := by
    decide +kernel
  rw [escaped] at read
  rw [repeated] at refused
  exact ⟨read, fault, refused⟩

end Request

end TenantGate
