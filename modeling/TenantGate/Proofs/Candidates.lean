import TenantGate.Api.Operations
import TenantGate.Http.Message
import TenantGate.Proofs.Trimming
import TenantGate.Tenant.Detection

/-!
Detection as a choice among candidates. A request puts its candidates for the tenant in one order:
the route value, the first value of the header field where it is legible, then the query values of
the one name and of the other. The first candidate that is not blank is the tenant, without the
blanks around it. Nothing else of a request is looked at.
-/
namespace TenantGate

namespace Text

/-- What a list of texts comes to: its first text that is not blank, without the blanks around it,
or nothing if all of them are blank. -/
inductive FirstNonBlank : List String → Option String → Prop where
  | none {texts : List String} (blank : ∀ s ∈ texts, ∀ c ∈ s.toList, isBlank c = true) :
      FirstNonBlank texts none
  | some {before after : List String} {s t : String}
      (blank : ∀ s ∈ before, ∀ c ∈ s.toList, isBlank c = true) (trimmed : IsTrimOf t s)
      (solid : t ≠ "") : FirstNonBlank (before ++ s :: after) (some t)

theorem nonBlank?_eq_none_iff {s : String} :
    nonBlank? s = none ↔ ∀ c ∈ s.toList, isBlank c = true := by
  rw [nonBlank?_eq, ← List.all_eq_true]
  split <;> simp_all

theorem nonBlank?_eq_some_iff {s t : String} : nonBlank? s = some t ↔ IsTrimOf t s ∧ t ≠ "" := by
  rw [isTrimOf_iff]
  simp only [nonBlank?, String.isEmpty_iff]
  split
  · rename_i empty
    simp only [reduceCtorEq, false_iff, not_and, not_not]
    rintro rfl
    exact empty
  · rename_i solid
    simp only [Option.some.injEq, iff_self_and]
    rintro rfl
    exact solid

theorem firstNonBlank_iff {texts : List String} {id : Option String} :
    FirstNonBlank texts id ↔ texts.findSome? nonBlank? = id := by
  constructor
  · intro first
    cases first with
    | none blank =>
      exact List.findSome?_eq_none_iff.mpr fun s among => nonBlank?_eq_none_iff.mpr (blank s among)
    | some blank trimmed solid =>
      refine List.findSome?_eq_some_iff.mpr ⟨_, _, _, rfl, ?_, ?_⟩
      · exact nonBlank?_eq_some_iff.mpr ⟨trimmed, solid⟩
      · exact fun s among => nonBlank?_eq_none_iff.mpr (blank s among)
  · rintro rfl
    cases found : texts.findSome? nonBlank? with
    | none =>
      exact .none fun s among =>
        nonBlank?_eq_none_iff.mp (List.findSome?_eq_none_iff.mp found s among)
    | some t =>
      obtain ⟨before, s, after, rfl, here, none⟩ := List.findSome?_eq_some_iff.mp found
      obtain ⟨trimmed, solid⟩ := nonBlank?_eq_some_iff.mp here
      exact .some (fun s among => nonBlank?_eq_none_iff.mp (none s among)) trimmed solid

theorem trim_of_firstNonBlank {texts : List String} {t : String}
    (first : FirstNonBlank texts (some t)) : t ≠ "" ∧ trim t = t := by
  cases first with
  | some _ trimmed solid =>
    refine ⟨solid, ?_⟩
    rw [← isTrimOf_iff.mp trimmed, trim_trim]

end Text

namespace Http

/-- What stands above the body of a request. The names of its fields may be in any letters. -/
structure RequestHead where
  method : Method
  uri : Uri
  fields : List (String × List UInt8)

def RequestHead.headers (head : RequestHead) : List Header :=
  head.fields.map fun (name, value) => ⟨name.toLower, value⟩

end Http

namespace Detective

/-- The first value of the field, if all its bytes are visible ASCII, spaces or tabs. -/
def headerCandidates (fields : List (String × List UInt8)) : List String :=
  match fields.find? fun (name, _) => name.toLower == "tenant" with
  | some (_, value) =>
    if value.all Http.Header.isVisibleByte then [Http.Header.asciiText value] else []
  | none => []

def queryCandidates (name : String) (query : Option (List UInt8)) : List String :=
  ((Text.formPairs (query.getD [])).filter fun (key, _) => key == name).map (·.2)

/-- Everything that may be the tenant of a request, what counts more before what counts less. -/
def candidates (head : Http.RequestHead) (values : RouteValues) : List String :=
  (values.lookup "organization_id").toList ++ headerCandidates head.fields ++
    queryCandidates "organizationId" head.uri.query ++ queryCandidates "tenantId" head.uri.query

theorem fromRoute_eq (values : RouteValues) :
    fromRoute values = (values.lookup "organization_id").toList.findSome? Text.nonBlank? := by
  rw [fromRoute, routeValue]
  cases values.lookup "organization_id" with
  | none => rfl
  | some value => simp

theorem fromHeader_eq (head : Http.RequestHead) :
    fromHeader head.headers = (headerCandidates head.fields).findSome? Text.nonBlank? := by
  rw [fromHeader, Http.firstText?, Http.firstValue?, Http.RequestHead.headers, List.find?_map,
    headerCandidates]
  simp only [Function.comp_def, header]
  cases head.fields.find? fun (name, _) => name.toLower == "tenant" with
  | none => rfl
  | some field =>
    by_cases visible : field.2.all Http.Header.isVisibleByte = true
    · simp [Http.Header.text?, visible]
    · simp [Http.Header.text?, visible]

theorem fromPairs_eq (name : String) (pairs : List (String × String)) :
    fromPairs name pairs =
      ((pairs.filter fun (key, _) => key == name).map (·.2)).findSome? Text.nonBlank? := by
  rw [fromPairs]
  induction pairs with
  | nil => rfl
  | cons pair more ih =>
    by_cases named : (pair.1 == name) = true
    · simp only [List.findSome?_cons, List.filter_cons, named, ih, ↓reduceIte, List.map_cons]
    · simp only [List.findSome?_cons, List.filter_cons, named, ih, Bool.false_eq_true, ↓reduceIte]

theorem fromQuery_eq (uri : Http.Uri) :
    fromQuery uri = (queryCandidates "organizationId" uri.query ++
      queryCandidates "tenantId" uri.query).findSome? Text.nonBlank? := by
  rw [fromQuery, queryNames, List.findSome?_append]
  cases uri.query with
  | none => rfl
  | some query =>
    simp only [queryCandidates, ← fromPairs_eq, Option.getD_some, Option.bind_some,
      List.findSome?_cons, List.findSome?_nil]
    cases fromPairs "organizationId" (Text.formPairs query) with
    | some t => rfl
    | none => cases fromPairs "tenantId" (Text.formPairs query) <;> rfl

theorem detect_eq (head : Http.RequestHead) (values : RouteValues) (route : Api.Descriptor) :
    detect head.uri head.headers values (some route) =
      ⟨route.requiresTenant, (candidates head values).findSome? Text.nonBlank?⟩ := by
  rw [detect, fromRoute_eq, fromHeader_eq, fromQuery_eq, ← List.findSome?_append,
    ← List.findSome?_append, candidates]
  simp only [List.append_assoc]

/-- Without a route nothing is detected. With one, it says whether a tenant is required, and the
tenant is the first candidate that is not blank, without the blanks around it. So it is never empty
and has no blanks to take off, and requests with the same candidates have the same tenant, however
they differ otherwise. -/
theorem detection_is_first_candidate (head head' : Http.RequestHead)
    (values values' : RouteValues) :
    detect head.uri head.headers values none = ⟨false, none⟩ ∧
    ∀ route : Api.Descriptor,
      (detect head.uri head.headers values (some route)).required = route.requiresTenant ∧
      (∀ id, (detect head.uri head.headers values (some route)).tenantId = id ↔
        Text.FirstNonBlank (candidates head values) id) ∧
      (∀ t, (detect head.uri head.headers values (some route)).tenantId = some t →
        t ≠ "" ∧ Text.trim t = t) ∧
      (candidates head values = candidates head' values' →
        detect head.uri head.headers values (some route) =
          detect head'.uri head'.headers values' (some route)) := by
  refine ⟨rfl, fun route => ?_⟩
  simp only [detect_eq]
  refine ⟨trivial, ?_, ?_, ?_⟩
  · intro id
    exact Text.firstNonBlank_iff.symm
  · intro t named
    exact Text.trim_of_firstNonBlank (Text.firstNonBlank_iff.mpr named)
  · intro same
    rw [same]

def fieldBeforeQuery : Http.RequestHead :=
  ⟨.post, ⟨Utf8.encode "/record/crash", some (Utf8.encode "tenantId=+org1&x=&tenantId=org2")⟩,
    [("TENANT", [0x20, 0x09])]⟩

def queryAlone : Http.RequestHead :=
  ⟨.get, ⟨Utf8.encode "/",
      some (Utf8.encode "tenant%49d=org2&organizationId=%20%09&organizationId=%20org1")⟩,
    [("accept", Utf8.encode "*/*"), ("tenants", Utf8.encode "org3")]⟩

/-- Two requests with the same candidates that differ in everything else. -/
theorem same_candidates_are_detected_alike :
    candidates fieldBeforeQuery [] = candidates queryAlone [] ∧
      detect fieldBeforeQuery.uri fieldBeforeQuery.headers []
          (some (Api.Contracts.recordCrash.describe false)) =
        detect queryAlone.uri queryAlone.headers []
          (some (Api.Contracts.recordCrash.describe false)) ∧
      (detect queryAlone.uri queryAlone.headers []
        (some (Api.Contracts.recordCrash.describe false))).tenantId = some "org1" := by
  have same : candidates fieldBeforeQuery [] = candidates queryAlone [] := by decide +kernel
  obtain ⟨_, detected⟩ := detection_is_first_candidate fieldBeforeQuery queryAlone [] []
  obtain ⟨_, _, _, alike⟩ := detected (Api.Contracts.recordCrash.describe false)
  exact ⟨same, alike same, by decide +kernel⟩

end Detective

end TenantGate
