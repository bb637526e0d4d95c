import TenantGate.Proofs.Candidates
import TenantGate.Proofs.SettingsRoute
import TenantGate.Proofs.Spellings

/-!
The places of a request that can carry a tenant: a segment of its path, a header field, and two
parameters of its query. A path and a form are escaped, each in its own way, and a header field is
not. A tenant that a request carries in one of these places alone is detected the same in each of
them, whatever is escaped.
-/
namespace TenantGate.Gate

open Http Text

inductive Carrier where
  | segment (written : List UInt8)
  | field
  | parameter (name : String) (writtenName written : List UInt8)
deriving Repr, DecidableEq

/-- What a header field can carry: visible ASCII, spaces and tabs. -/
def IsFieldText (id : String) : Prop := ∀ c ∈ id.toList, c = '\t' ∨ (0x20 ≤ c.toNat ∧ c.toNat < 0x7F)

namespace Inbound

def PathSilent (inbound : Inbound) : Prop :=
  (inbound.values.toOption.getD []).lookup "organization_id" = none

def FieldsSilent (fields : List Header) : Prop := ∀ field ∈ fields, field.name ≠ "tenant"

def QuerySilent (query : List UInt8) : Prop :=
  ∀ pair ∈ formPairs query, pair.1 ≠ "organizationId" ∧ pair.1 ≠ "tenantId"

end Inbound

open Inbound

/-- A request on its way to its handler carries the tenant in one place, and no other place names
one. -/
inductive CarriesAlone (id : String) (inbound : Inbound) : Carrier → Prop where
  | segment {written : List UInt8} {m : Router.Match} {values : RouteValues}
      (matched : Router.matchTemplate inbound.request.uri.path inbound.template = some m)
      (placed : m.values.lookup "organization_id" = some written)
      (spelled : Spelled InPathSegment (Utf8.encode id) written)
      (decoded : decodeValues m.values = .ok values) (kept : inbound.values = .ok values)
      (noField : FieldsSilent inbound.request.headers)
      (noParameter : QuerySilent (inbound.request.uri.query.getD [])) :
      CarriesAlone id inbound (.segment written)
  | field {before after : List Header} (text : IsFieldText id)
      (fields : inbound.request.headers = before ++ ⟨"tenant", Utf8.encode id⟩ :: after)
      (noOther : FieldsSilent (before ++ after)) (noSegment : PathSilent inbound)
      (noParameter : QuerySilent (inbound.request.uri.query.getD [])) :
      CarriesAlone id inbound .field
  | parameter {name : String} {writtenName written : List UInt8} {before after : List (List UInt8)}
      (named : name = "organizationId" ∨ name = "tenantId")
      (spelledName : Spelled InFormName (Utf8.encode name) writtenName)
      (spelled : Spelled InFormValue (Utf8.encode id) written)
      (query : inbound.request.uri.query = some (List.intercalate [0x26]
        (before ++ (writtenName ++ 0x3D :: written) :: after)))
      (noOther : ∀ part ∈ before ++ after, QuerySilent part)
      (noSegment : PathSilent inbound) (noField : FieldsSilent inbound.request.headers) :
      CarriesAlone id inbound (.parameter name writtenName written)

section Silence

variable {inbound : Inbound}

theorem fromRoute_of_silent (silent : PathSilent inbound) :
    Detective.fromRoute (inbound.values.toOption.getD []) = none := by
  rw [Detective.fromRoute, Detective.routeValue, silent]
  rfl

theorem fromHeader_of_silent {fields : List Header} (silent : FieldsSilent fields) :
    Detective.fromHeader fields = none := by
  have none : fields.find? (fun h => h.name == Detective.header) = none :=
    List.find?_eq_none.mpr fun field among => by
      rw [beq_iff_eq]
      exact silent field among
  rw [Detective.fromHeader, firstText?, firstValue?, none]
  rfl

theorem named_of_silent {query : List UInt8} (silent : QuerySilent query) {name : String}
    (named : name = "organizationId" ∨ name = "tenantId") :
    (formPairs query).filter (fun (key, _) => key == name) = [] := by
  rw [List.filter_eq_nil_iff]
  rintro pair among same
  obtain ⟨first, second⟩ := silent pair among
  rcases named with rfl | rfl
  · exact first (beq_iff_eq.mp same)
  · exact second (beq_iff_eq.mp same)

theorem fromQuery_of_silent {uri : Uri} (silent : QuerySilent (uri.query.getD [])) :
    Detective.fromQuery uri = none := by
  rw [Detective.fromQuery_eq, Detective.queryCandidates, Detective.queryCandidates,
    named_of_silent silent (.inl rfl), named_of_silent silent (.inr rfl)]
  rfl

theorem querySilent_nothing : QuerySilent [] := fun _ among => absurd among List.not_mem_nil

end Silence

theorem lookup_decodeValues {raw : List (String × List UInt8)} {values : RouteValues}
    (decoded : decodeValues raw = .ok values) {name : String} {written : List UInt8}
    (placed : raw.lookup name = some written) {s : String}
    (read : Utf8.decode? (percentDecode written) = some s) : values.lookup name = some s := by
  induction raw generalizing values with
  | nil => exact absurd placed (by simp)
  | cons pair more ih =>
    obtain ⟨key, value⟩ := pair
    rw [decodeValues] at decoded
    split at decoded
    · rename_i t here
      cases later : decodeValues more with
      | error name =>
        rw [later] at decoded
        cases decoded
      | ok rest =>
        rw [later] at decoded
        cases decoded
        rw [List.lookup_cons] at placed ⊢
        split
        · rename_i same
          simp only [same] at placed
          rw [← Option.some.inj placed, here] at read
          exact read
        · rename_i other
          simp only [other] at placed
          exact ih later placed
    · cases decoded

theorem isVisibleByte_of_char {c : Char} (text : c = '\t' ∨ (0x20 ≤ c.toNat ∧ c.toNat < 0x7F)) :
    c.toNat < 0x80 ∧ Header.isVisibleByte (UInt8.ofNat c.toNat) = true := by
  rcases text with rfl | ⟨low, high⟩
  · decide
  · have number : (UInt8.ofNat c.toNat).toNat = c.toNat :=
      UInt8.toNat_ofNat_of_lt' (Nat.lt_trans high (by decide))
    refine ⟨Nat.lt_succ_of_lt high, ?_⟩
    simp only [Header.isVisibleByte, Bool.or_eq_true, Bool.and_eq_true, decide_eq_true_eq,
      UInt8.le_iff_toNat_le, UInt8.lt_iff_toNat_lt, number]
    exact .inr ⟨low, high⟩

theorem text?_encode {id : String} (text : IsFieldText id) :
    Header.text? (Utf8.encode id) = some id := by
  have small : ∀ c ∈ id.toList, c.toNat < 0x80 := fun c among =>
    (isVisibleByte_of_char (text c among)).1
  have bytes : Utf8.encode id = Utf8.asciiBytes id.toList := by
    have ascii := Utf8.encode_ascii id.toList small
    rwa [String.ofList_toList] at ascii
  have visible : (Utf8.asciiBytes id.toList).all Header.isVisibleByte = true := by
    rw [Utf8.asciiBytes, List.all_map, List.all_eq_true]
    exact fun c among => (isVisibleByte_of_char (text c among)).2
  have back : (Utf8.asciiBytes id.toList).map (fun b => Char.ofNat b.toNat) = id.toList := by
    have each : ∀ c ∈ id.toList, Char.ofNat (UInt8.ofNat c.toNat).toNat = c := by
      intro c among
      rw [UInt8.toNat_ofNat_of_lt' (Nat.lt_trans (small c among) (by decide)), Char.ofNat_toNat]
    rw [Utf8.asciiBytes, List.map_map]
    exact (List.map_congr_left each).trans (List.map_id' _)
  rw [bytes, Header.text?, if_pos visible, Header.asciiText, back, String.ofList_toList]

theorem fromRoute_of_segment {raw : List (String × List UInt8)} {values : RouteValues}
    {id : String} {written : List UInt8} (decoded : decodeValues raw = .ok values)
    (placed : raw.lookup "organization_id" = some written)
    (spelled : Spelled InPathSegment (Utf8.encode id) written) :
    Detective.fromRoute values = nonBlank? id := by
  rw [Detective.fromRoute, Detective.routeValue,
    lookup_decodeValues decoded placed (decode?_segment spelled), Option.bind_some]

theorem fromHeader_of_field {id : String} (text : IsFieldText id) {before after : List Header}
    (silent : FieldsSilent (before ++ after)) :
    Detective.fromHeader (before ++ ⟨"tenant", Utf8.encode id⟩ :: after) = nonBlank? id := by
  have first : (before ++ ⟨"tenant", Utf8.encode id⟩ :: after).find?
      (fun h => h.name == Detective.header) = some ⟨"tenant", Utf8.encode id⟩ := by
    refine List.find?_eq_some_iff_append.mpr ⟨beq_self_eq_true _, before, after, rfl, fun field among => ?_⟩
    simpa [Detective.header] using silent field (List.mem_append_left _ among)
  rw [Detective.fromHeader, firstText?, firstValue?, first, Option.map_some, Option.bind_some,
    text?_encode text, Option.bind_some]

theorem fromQuery_of_parameter {uri : Uri} {id name : String} {writtenName written : List UInt8}
    {before after : List (List UInt8)} (named : name = "organizationId" ∨ name = "tenantId")
    (spelledName : Spelled InFormName (Utf8.encode name) writtenName)
    (spelled : Spelled InFormValue (Utf8.encode id) written)
    (query : uri.query = some (List.intercalate [0x26]
      (before ++ (writtenName ++ 0x3D :: written) :: after)))
    (silent : ∀ part ∈ before ++ after, QuerySilent part) :
    Detective.fromQuery uri = nonBlank? id := by
  have quiet (parts : List (List UInt8)) (within : ∀ part ∈ parts, QuerySilent part)
      {other : String} (named : other = "organizationId" ∨ other = "tenantId") :
      (parts.flatMap formPairs).filter (fun (key, _) => key == other) = [] := by
    rw [List.filter_flatMap, List.flatMap_eq_nil_iff]
    exact fun part among => named_of_silent (within part among) named
  have values (other : String) (known : other = "organizationId" ∨ other = "tenantId") :
      Detective.queryCandidates other uri.query = if name = other then [id] else [] := by
    rw [Detective.queryCandidates, query, Option.getD_some, formPairs_joined, List.flatMap_append,
      List.flatMap_cons, formPairs_spelled spelledName spelled, List.filter_append,
      List.filter_append, quiet before (fun part among => silent part (List.mem_append_left _ among))
        known, quiet after (fun part among => silent part (List.mem_append_right _ among)) known]
    by_cases same : name = other <;> simp [same]
  rw [Detective.fromQuery_eq, values _ (.inl rfl), values _ (.inr rfl)]
  rcases named with rfl | rfl <;> simp

theorem detection_of_carriesAlone {id : String} {inbound : Inbound} {carrier : Carrier}
    (carries : CarriesAlone id inbound carrier) (d : Api.Descriptor) :
    detectionOf d inbound = ⟨d.requiresTenant, nonBlank? id⟩ := by
  rw [detectionOf, Detective.detect]
  congr 1
  cases carries with
  | segment matched placed spelled decoded kept noField noParameter =>
    rw [fromHeader_of_silent noField, fromQuery_of_silent noParameter, kept]
    rw [Except.toOption, Option.getD_some, fromRoute_of_segment decoded placed spelled,
      Option.or_none, Option.or_none]
  | field text fields noOther noSegment noParameter =>
    rw [fromRoute_of_silent noSegment, fromQuery_of_silent noParameter, fields,
      fromHeader_of_field text noOther, Option.none_or, Option.or_none]
  | parameter named spelledName spelled query noOther noSegment noField =>
    rw [fromRoute_of_silent noSegment, fromHeader_of_silent noField,
      fromQuery_of_parameter named spelledName spelled query noOther, Option.none_or,
      Option.none_or]

/-- A tenant that a request carries in one place alone is detected the same from all of them: it is
the carried text without the blanks around it, or none if there are only blanks. There are such
requests for each spelling of the text in a path or in either parameter of a query, and for a header
field if the text is visible ASCII, spaces and tabs. -/
theorem tenant_is_detected_by_any_carrier (id : String) (d : Api.Descriptor) :
    (∀ inbound carrier, CarriesAlone id inbound carrier →
      detectionOf d inbound =
        ⟨d.requiresTenant, if id.toList.all isBlank then none else some (trim id)⟩) ∧
    (∀ written, Spelled InPathSegment (Utf8.encode id) written →
      ∃ inbound, CarriesAlone id inbound (.segment written)) ∧
    (IsFieldText id → ∃ inbound, CarriesAlone id inbound .field) ∧
    (∀ name writtenName written, name = "organizationId" ∨ name = "tenantId" →
      Spelled InFormName (Utf8.encode name) writtenName →
      Spelled InFormValue (Utf8.encode id) written →
      ∃ inbound, CarriesAlone id inbound (.parameter name writtenName written)) := by
  refine ⟨?_, ?_, ?_, ?_⟩
  · intro inbound carrier carries
    rw [detection_of_carriesAlone carries, nonBlank?_eq]
  · intro written spelled
    refine ⟨settingsInbound ⟨.get, ⟨settingsPath written, none⟩, [], []⟩ written, ?_⟩
    have decoded : decodeValues [("organization_id", written)] = .ok [("organization_id", id)] := by
      simp [decodeValues, decode?_segment spelled, Except.map]
    exact .segment (matchTemplate_settings spelled.single) (by simp) spelled decoded decoded
      (by simp [FieldsSilent, settingsInbound]) querySilent_nothing
  · intro text
    let request : Http.Request := ⟨.get, ⟨[], none⟩, [⟨"tenant", Utf8.encode id⟩], []⟩
    have fields : request.headers = [] ++ ⟨"tenant", Utf8.encode id⟩ :: [] := rfl
    exact ⟨⟨request, "", .ok [], .none⟩,
      .field text fields (by simp [FieldsSilent]) rfl querySilent_nothing⟩
  · intro name writtenName written named spelledName spelled
    let request : Http.Request := ⟨.get, ⟨[], some (writtenName ++ 0x3D :: written)⟩, [], []⟩
    have query : request.uri.query =
        some (List.intercalate [0x26] ([] ++ (writtenName ++ 0x3D :: written) :: [])) := by
      simp [request, List.intercalate]
    exact ⟨⟨request, "", .ok [], .none⟩,
      .parameter named spelledName spelled query (by simp) rfl (by simp [FieldsSilent, request])⟩

def segmentRequest : Inbound :=
  settingsInbound ⟨.get, ⟨settingsPath (Utf8.encode "%20+%25"), none⟩, [], []⟩
    (Utf8.encode "%20+%25")

/-- A request with the same name in its query, spelled `+%2b%25` there, behind another parameter. -/
def parameterRequest : Inbound :=
  ⟨⟨.post, ⟨Utf8.encode "/record/crash", some (Utf8.encode "page=1&tenantId=+%2b%25")⟩, [], []⟩,
    Api.Contracts.recordCrash.path, .ok [], .none⟩

/-- A plus sign is itself in a path, but not in a query; a percent sign is escaped in both. -/
theorem reserved_characters_are_carried_alike :
    CarriesAlone " +%" segmentRequest (.segment (Utf8.encode "%20+%25")) ∧
      CarriesAlone " +%" parameterRequest
        (.parameter "tenantId" (Utf8.encode "tenantId") (Utf8.encode "+%2b%25")) ∧
      detectionOf (Api.Contracts.recordCrash.describe false) segmentRequest =
        ⟨false, some "+%"⟩ ∧
      detectionOf (Api.Contracts.recordCrash.describe false) parameterRequest =
        ⟨false, some "+%"⟩ := by
  have bytes : Utf8.encode " +%" = [0x20, 0x2B, 0x25] := by decide +kernel
  have inPath : Spelled InPathSegment (Utf8.encode " +%") (Utf8.encode "%20+%25") := by
    have written : Utf8.encode "%20+%25" = [0x25, 0x32, 0x30, 0x2B, 0x25, 0x32, 0x35] := by
      decide +kernel
    rw [bytes, written]
    exact .escaped (by decide +kernel) (by decide +kernel) <|
      .plain (by decide +kernel) <| .escaped (by decide +kernel) (by decide +kernel) .nil
  have inForm : Spelled InFormValue (Utf8.encode " +%") (Utf8.encode "+%2b%25") := by
    have written : Utf8.encode "+%2b%25" = [0x2B, 0x25, 0x32, 0x62, 0x25, 0x32, 0x35] := by
      decide +kernel
    rw [bytes, written]
    exact .plain (by decide +kernel) <| .escaped (by decide +kernel) (by decide +kernel) <|
      .escaped (by decide +kernel) (by decide +kernel) .nil
  have plainName : Spelled InFormName (Utf8.encode "tenantId") (Utf8.encode "tenantId") :=
    Spelled.itself (by decide +kernel)
  have decoded : decodeValues [("organization_id", Utf8.encode "%20+%25")] =
      .ok [("organization_id", " +%")] := by
    simp [decodeValues, decode?_segment inPath, Except.map]
  have bySegment : CarriesAlone " +%" segmentRequest (.segment (Utf8.encode "%20+%25")) :=
    .segment (matchTemplate_settings inPath.single) (by simp) inPath decoded decoded
      (by simp [FieldsSilent, segmentRequest, settingsInbound]) querySilent_nothing
  have page : QuerySilent (Utf8.encode "page=1") := by
    have pairs : formPairs (Utf8.encode "page=1") = [("page", "1")] := by decide +kernel
    simp [QuerySilent, pairs]
  have query : parameterRequest.request.uri.query = some (List.intercalate [0x26]
      ([Utf8.encode "page=1"] ++
        (Utf8.encode "tenantId" ++ 0x3D :: Utf8.encode "+%2b%25") :: [])) := by decide +kernel
  have byParameter : CarriesAlone " +%" parameterRequest
      (.parameter "tenantId" (Utf8.encode "tenantId") (Utf8.encode "+%2b%25")) :=
    .parameter (.inr rfl) plainName inForm query (by simpa using page) rfl
      (by simp [FieldsSilent, parameterRequest])
  obtain ⟨detected, _⟩ :=
    tenant_is_detected_by_any_carrier " +%" (Api.Contracts.recordCrash.describe false)
  have whole : (if (" +%" : String).toList.all isBlank then none else some (trim " +%")) =
      some "+%" := by decide +kernel
  rw [detected _ _ bySegment, detected _ _ byParameter, whole]
  exact ⟨bySegment, byParameter, rfl, rfl⟩

end TenantGate.Gate
