import TenantGate.Proofs.Dispatch
import TenantGate.Proofs.Spellings

/-!
The paths of the operation for an organization's settings: any one segment may stand for the
organization, and a request under such a path is for no other operation.
-/
namespace TenantGate

open Gate Api

variable {σ : Type}

namespace Http

theorem splitPath_eq (path : List UInt8) : splitPath path = Text.splitOnByte 0x2F path := by
  induction path with
  | nil => rfl
  | cons b more ih =>
    rw [splitPath, ih]
    rfl

theorem splitPath_plain {piece : List UInt8} (plain : 0x2F ∉ piece) : splitPath piece = [piece] := by
  rw [splitPath_eq, Text.splitOnByte_plain plain]

theorem splitPath_append (path more : List UInt8) :
    splitPath (path ++ 0x2F :: more) = splitPath path ++ splitPath more := by
  simp only [splitPath_eq, Text.splitOnByte_append]

end Http

namespace Gate

open Http

def settingsTemplate : String := Contracts.organizationSettings.path

def settingsPath (segment : List UInt8) : List UInt8 :=
  Utf8.encode "/organizations/" ++ segment ++ Utf8.encode "/settings"

theorem splitPath_settingsPath {segment : List UInt8} (single : 0x2F ∉ segment) :
    splitPath (settingsPath segment) =
      [[], Utf8.encode "organizations", segment, Utf8.encode "settings"] := by
  have front : Utf8.encode "/organizations/" = 0x2F :: Utf8.encode "organizations" ++ [0x2F] := by
    decide +kernel
  have back : Utf8.encode "/settings" = 0x2F :: Utf8.encode "settings" := by decide +kernel
  have plain : 0x2F ∉ Utf8.encode "organizations" := by decide +kernel
  have plain' : 0x2F ∉ Utf8.encode "settings" := by decide +kernel
  have shape : settingsPath segment =
      [] ++ 0x2F :: (Utf8.encode "organizations" ++ 0x2F :: (segment ++ 0x2F ::
        Utf8.encode "settings")) := by
    rw [settingsPath, front, back]
    simp only [List.cons_append, List.nil_append, List.append_assoc]
  rw [shape, splitPath_append, splitPath_append, splitPath_append, splitPath_plain plain,
    splitPath_plain single, splitPath_plain plain']
  rfl

/-- The pattern starts with two words, and the second one is another one than the given. -/
def startsElsewhere (word : List UInt8) : List Segment → Bool
  | .literal _ :: .literal text :: _ => text != word
  | _ => false

theorem matchTemplate_elsewhere {path front word : List UInt8} {pieces : List (List UInt8)}
    (split : splitPath path = front :: word :: pieces) {template : String}
    (elsewhere : startsElsewhere word (patternOf template) = true) :
    Router.matchTemplate path template = none := by
  have none : matchSegments (patternOf template) (front :: word :: pieces) = none := by
    unfold startsElsewhere at elsewhere
    split at elsewhere
    · rename_i first text more shape
      have other : ¬ (text == word) = true := by
        intro same
        rw [bne, same] at elsewhere
        exact absurd elsewhere (by decide)
      rw [shape, matchSegments, matchSegments, if_neg other]
      split <;> rfl
    · exact absurd elsewhere (by decide)
  rw [Router.matchTemplate, split, none]
  rfl

theorem matchTemplate_settings {segment : List UInt8} (single : 0x2F ∉ segment) :
    Router.matchTemplate (settingsPath segment) settingsTemplate =
      some ⟨settingsTemplate, patternOf settingsTemplate, [("organization_id", segment)]⟩ := by
  have shape : patternOf settingsTemplate =
      [.literal [], .literal (Utf8.encode "organizations"), .one "organization_id",
        .literal (Utf8.encode "settings")] := by decide +kernel
  have found : matchSegments (patternOf settingsTemplate) (splitPath (settingsPath segment)) =
      some [("organization_id", segment)] := by
    rw [splitPath_settingsPath single, shape]
    simp [matchSegments]
  rw [Router.matchTemplate, found]
  rfl

def operationTemplates (testing : Bool) : List String :=
  Contracts.recordCrash.path :: settingsTemplate ::
    if testing then [Contracts.authorizeByNothing.path, Contracts.tenancyReport.path] else []

theorem templates_registered {testing : Bool} {registry : Registry (Handler σ)}
    (registered : registeredOperations testing = .ok registry) :
    registry.handlers.map Mount.path = operationTemplates testing := by
  have built : Built testing operations registry := Built.empty.registerAll registered
  rw [built.handlers]
  cases testing <;> rfl

theorem matched?_settings {testing : Bool} {registry : Registry (Handler σ)}
    (registered : registeredOperations testing = .ok registry) {segment : List UInt8}
    (single : 0x2F ∉ segment) :
    Host.matched? registry (settingsPath segment) =
      some ⟨settingsTemplate, patternOf settingsTemplate, [("organization_id", segment)]⟩ := by
  let others := (operationTemplates testing).drop 2 ++ Host.probeTemplates
  have templates : registry.handlers.map Mount.path ++ Host.probeTemplates =
      Contracts.recordCrash.path :: settingsTemplate :: others := by
    rw [templates_registered registered]
    rfl
  have split := splitPath_settingsPath single
  have crash : Router.matchTemplate (settingsPath segment) Contracts.recordCrash.path = none :=
    matchTemplate_elsewhere split (by decide +kernel)
  have elsewhere : others.filterMap (Router.matchTemplate (settingsPath segment)) = [] := by
    have all : ∀ template ∈ others,
        startsElsewhere (Utf8.encode "organizations") (patternOf template) = true := by
      cases testing <;> decide +kernel
    rw [List.filterMap_eq_nil_iff]
    intro template listed
    exact matchTemplate_elsewhere split (all template listed)
  rw [Host.matched?_eq, templates, List.filterMap_cons, crash, List.filterMap_cons,
    matchTemplate_settings single, elsewhere]
  rfl

def settingsEntry : Entry (Handler σ) :=
  ⟨Contracts.organizationSettings, true, Handlers.organizationSettings⟩

/-- A request for the settings of the organization in the segment, as the operation gets it. -/
def settingsInbound (request : Http.Request) (segment : List UInt8) : Inbound :=
  ⟨request, settingsTemplate, decodeValues [("organization_id", segment)],
    { Extensions.none with cancelled := some false }⟩

theorem operationFor?_settings {testing : Bool} {registry : Registry (Handler σ)}
    (registered : registeredOperations testing = .ok registry) {request : Http.Request}
    (asks : request.method = .get) {segment : List UInt8}
    (path : request.uri.path = settingsPath segment) (single : 0x2F ∉ segment) :
    Host.operationFor? registry request =
      some (settingsEntry.mount, settingsInbound request segment) := by
  have built : Built testing operations registry := Built.empty.registerAll registered
  have filed : Host.mountFor? registry settingsTemplate .get = some settingsEntry.mount := by
    rw [Host.mountFor?, built.handlers]
    cases testing <;> rfl
  have other : ¬ request.method = .options := by
    rw [asks]
    decide
  rw [Host.operationFor?, if_neg other, path, matched?_settings registered single, asks]
  simp only [Option.bind_some, filed]
  rfl

theorem eq_settingsEntry {e : Entry (Handler σ)} (member : e ∈ operations)
    (path : e.contract.path = settingsTemplate) : e = settingsEntry := by
  have crash : Contracts.recordCrash.path ≠ settingsTemplate := by decide
  have nothing : Contracts.authorizeByNothing.path ≠ settingsTemplate := by decide
  have report : Contracts.tenancyReport.path ≠ settingsTemplate := by decide
  rcases List.mem_cons.mp member with rfl | member
  · exact absurd path crash
  rcases List.mem_cons.mp member with rfl | member
  · rfl
  rcases List.mem_cons.mp member with rfl | member
  · exact absurd path nothing
  rcases List.mem_singleton.mp member with rfl
  exact absurd path report

end Gate

end TenantGate
