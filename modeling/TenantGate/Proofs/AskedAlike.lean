import TenantGate.Proofs.Dispatch

/-!
Requests that are asked alike, and sites with related services: to the steps before an operation
they are the same. A step has no use for a body, does not tell `HEAD` from `GET`, and hands each
request on as it is.
-/
namespace TenantGate.Gate

open Api Telemetry

variable {σ τ : Type}

/-- To all but handlers the requests look alike: bodies do not count, and `HEAD` counts as `GET`. -/
structure AskedAlike (first second : Http.Request) : Prop where
  uri : first.uri = second.uri
  headers : first.headers = second.headers
  method : RouteTable.lookupMethod first.method = RouteTable.lookupMethod second.method

def Inbound.withRequest (inbound : Inbound) (request : Http.Request) : Inbound :=
  { inbound with request }

theorem operationOf_withRequest (table : RouteTable) {inbound : Inbound} {request : Http.Request}
    (alike : AskedAlike request inbound.request) :
    operationOf table (inbound.withRequest request) = operationOf table inbound := by
  simp only [operationOf, RouteTable.find?, Inbound.withRequest, alike.method]

namespace Step

/-- The step does the same with requests that are asked alike, and hands each of them on as it is. -/
structure Follows (step : Step σ) : Prop where
  alike : ∀ inbound request site, AskedAlike request inbound.request →
    step (inbound.withRequest request) site =
      ((step inbound site).1.map (·.withRequest request), (step inbound site).2)
  kept : ∀ inbound site inbound' site', step inbound site = (.ok inbound', site') →
    inbound'.request = inbound.request

theorem follows_andThen {first second : Step σ} (follows : Follows first)
    (follows' : Follows second) : Follows (first.andThen second) := by
  constructor
  · intro inbound request site alike
    have start := follows.alike inbound request site alike
    simp only [andThen, start]
    rcases stepped : first inbound site with ⟨response | i, s⟩
    · rfl
    · have same := follows.kept inbound site i s stepped
      exact follows'.alike i request s (same ▸ alike)
  · intro inbound site inbound' site' went
    obtain ⟨i, s, stepped, rest⟩ := andThen_ok went
    exact (follows'.kept i s inbound' site' rest).trans (follows.kept inbound site i s stepped)

theorem follows_identify (introspect : String → Call σ Auth.Introspection) :
    Follows (identify introspect) := by
  constructor
  · intro inbound request site alike
    have headers : (inbound.withRequest request).request.headers = inbound.request.headers :=
      alike.headers
    simp only [identify, headers]
    rcases callerOf introspect inbound.request.headers site with ⟨f | caller, s⟩ <;> rfl
  · intro inbound site inbound' site' went
    obtain ⟨caller, _, rfl⟩ := identify_ok went
    rfl

theorem follows_allow (table : RouteTable) : Follows (allow table : Step σ) := by
  constructor
  · intro inbound request site alike
    simp only [allow, operationOf_withRequest table alike]
    cases operationOf table inbound with
    | none => rfl
    | some d =>
      by_cases may : mayCall d inbound.extensions.caller = true
      · have may' : mayCall d (inbound.withRequest request).extensions.caller = true := may
        simp only [may, may', ↓reduceIte]
        rfl
      · have may' : ¬ mayCall d (inbound.withRequest request).extensions.caller = true := may
        simp only [if_neg may, if_neg may']
        rfl
  · intro inbound site inbound' site' went
    rw [(allow_ok went).1]

theorem settle_withRequest (inbound : Inbound) (request : Http.Request) (site : Site σ)
    (result : Except Failure Outcome) :
    settle (inbound.withRequest request) site result =
      ((settle inbound site result).1.map (·.withRequest request),
        (settle inbound site result).2) := by
  rcases result with f | outcome
  · rfl
  · cases outcome with
    | forward => rfl
    | reject r => rfl
    | forwardWith tenancy =>
      have published : publish tenancy (inbound.withRequest request) =
          (publish tenancy inbound).map (·.withRequest request) := by
        simp only [publish, Inbound.withRequest]
        cases (inbound.extensions.tenancy.getD .empty).set tenancy <;> rfl
      simp only [settle, published]
      cases publish tenancy inbound <;> rfl

theorem settle_kept {inbound inbound' : Inbound} {site site' : Site σ}
    {result : Except Failure Outcome} (went : settle inbound site result = (.ok inbound', site')) :
    inbound'.request = inbound.request := by
  rcases result with f | outcome
  · exact absurd (congrArg Prod.fst went) (by simp [settle])
  · cases outcome with
    | forward => exact congrArg Inbound.request (Except.ok.inj (congrArg Prod.fst went)).symm
    | reject r => exact absurd (congrArg Prod.fst went) (by simp [settle])
    | forwardWith tenancy =>
      simp only [settle, publish] at went
      cases held : (inbound.extensions.tenancy.getD .empty).set tenancy with
      | error f =>
        rw [held] at went
        exact absurd (congrArg Prod.fst went) (by simp [Except.map])
      | ok slot =>
        rw [held] at went
        rw [← Except.ok.inj (congrArg Prod.fst went)]
        rfl

theorem follows_resolve (table : RouteTable) (services : Services σ) (took : Durations) :
    Follows (resolve table services took) := by
  constructor
  · intro inbound request site alike
    simp only [resolve, operationOf_withRequest table alike]
    cases operationOf table inbound with
    | none => rfl
    | some d =>
      have decided : decideTenancy services took d (inbound.withRequest request) site =
          decideTenancy services took d inbound site := by
        simp only [decideTenancy, detectionOf, Inbound.withRequest, alike.uri, alike.headers]
      simp only [decided]
      exact settle_withRequest _ _ _ _
  · intro inbound site inbound' site' went
    simp only [resolve] at went
    split at went
    · exact congrArg Inbound.request (Except.ok.inj (congrArg Prod.fst went)).symm
    · exact settle_kept went

theorem follows_all (table : RouteTable) (services : Services σ) (took : Durations) :
    Follows (all table services took) :=
  follows_andThen (follows_identify services.introspect)
    (follows_andThen (follows_allow table) (follows_resolve table services took))

end Step

theorem operationFor?_of_alike {testing : Bool} {entries : List (Entry (Handler σ))}
    {registry : Registry (Handler σ)} (built : Built testing entries registry)
    {first second : Http.Request} (alike : AskedAlike first second) :
    Host.operationFor? registry first =
      (Host.operationFor? registry second).map fun (mount, inbound) =>
        (mount, inbound.withRequest first) := by
  have filed (template : String) : Host.mountFor? registry template first.method =
      Host.mountFor? registry template second.method := by
    rw [Host.mountFor?, Host.mountFor?, built.handlers, List.find?_map, List.find?_map]
    congr 2
    funext e
    simp only [Function.comp_apply, Entry.mount, servesMethod_methodFilter, alike.method]
  have options : first.method = .options ↔ second.method = .options := by
    have looked := alike.method
    unfold RouteTable.lookupMethod at looked
    constructor
    · intro asks
      rw [asks, if_neg (by decide)] at looked
      split at looked
      · exact absurd looked (by decide)
      · exact looked.symm
    · intro asks
      rw [asks, if_neg (by decide : ¬ Http.Method.options = .head)] at looked
      split at looked
      · exact absurd looked (by decide)
      · exact looked
  by_cases asks : second.method = .options
  · rw [Host.operationFor?, Host.operationFor?, if_pos asks, if_pos (options.mpr asks)]
    rfl
  · rw [Host.operationFor?, Host.operationFor?, if_neg asks, if_neg (mt options.mp asks), alike.uri]
    cases Host.matched? registry second.uri.path with
    | none => rfl
    | some m =>
      simp only [Option.bind_some, filed, Option.map_map]
      rfl

section Noting

variable {R : τ → σ → Prop}

namespace Step

/-- On related sites the steps let the same requests go on, and leave related sites behind. -/
def Alike (R : τ → σ → Prop) (first : Step τ) (second : Step σ) : Prop :=
  ∀ inbound t s, Site.Alike R t s →
    (first inbound t).1 = (second inbound s).1 ∧
      Site.Alike R (first inbound t).2 (second inbound s).2

theorem alike_settle (inbound : Inbound) {t : Site τ} {s : Site σ} (related : Site.Alike R t s)
    (result : Except Failure Outcome) :
    (settle inbound t result).1 = (settle inbound s result).1 ∧
      Site.Alike R (settle inbound t result).2 (settle inbound s result).2 := by
  rcases result with f | outcome
  · refine ⟨rfl, ?_⟩
    simp only [settle]
    split
    · exact Site.alike_count related _
    · exact related
  · cases outcome with
    | forward => exact ⟨rfl, Site.alike_count related _⟩
    | reject r => exact ⟨rfl, Site.alike_count related _⟩
    | forwardWith tenancy =>
      simp only [settle]
      cases publish tenancy inbound with
      | ok inbound => exact ⟨rfl, Site.alike_count related _⟩
      | error f => exact ⟨rfl, related⟩

theorem alike_resolve {services : Services τ} {services' : Services σ}
    (same : Services.Alike R services services') (table : RouteTable) (took : Durations) :
    Alike R (resolve table services took) (resolve table services' took) := by
  intro inbound t s related
  simp only [resolve]
  cases operationOf table inbound with
  | none => exact ⟨rfl, related⟩
  | some d =>
    obtain ⟨answer, left⟩ := alike_decideTenancy same took d inbound t s related
    simp only [answer]
    exact alike_settle inbound (Site.alike_observe left _ _) _

end Step

end Noting

end TenantGate.Gate
