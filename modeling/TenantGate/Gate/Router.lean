import TenantGate.Gate.Site
import TenantGate.Http.PathPattern

/-!
Routing. The path picks the closest pattern, the method then picks the handler among those of the
pattern. `HEAD` is served by what serves `GET`. A path without a pattern is not found; a method
without a handler is answered with the methods that there are.
-/
namespace TenantGate.Gate

structure Route (σ : Type) where
  template : String
  method : Http.Method
  handler : Handler σ

namespace Router

variable {σ : Type}

def servesMethod (own method : Http.Method) : Bool :=
  own == method || (own == .get && method == .head)

def methodText (m : Http.Method) : String := if m = .get then "GET,HEAD" else m.name

def allowText (routes : List (Route σ)) : String :=
  String.intercalate "," (routes.map fun r => methodText r.method)

structure Match where
  template : String
  pattern : List Http.Segment
  values : List (String × List UInt8)

def matchTemplate (path : List UInt8) (template : String) : Option Match :=
  let pattern := Http.patternOf template
  (Http.matchSegments pattern (Http.splitPath path)).map fun values =>
    ⟨template, pattern, values⟩

/-- The closer one of two matches; the first one stays when neither is closer. -/
def closer (best : Option Match) (m : Match) : Option Match :=
  match best with
  | none => some m
  | some b => if Http.isCloser m.pattern b.pattern then some m else some b

def findTemplate (routes : List (Route σ)) (path : List UInt8) : Option Match :=
  (routes.filterMap fun r => matchTemplate path r.template).foldl closer none

def atTemplate (routes : List (Route σ)) (template : String) : List (Route σ) :=
  routes.filter fun r => r.template == template

def routeAt (routes : List (Route σ)) (template : String) (method : Http.Method) :
    Option (Route σ) :=
  (atTemplate routes template).find? fun r => servesMethod r.method method

def allowedAt (routes : List (Route σ)) (path : List UInt8) : Option String :=
  (findTemplate routes path).map fun m => allowText (atTemplate routes m.template)

def dispatch (routes : List (Route σ)) (extensions : Extensions) (request : Http.Request)
    (site : Site σ) : Http.Response × Site σ :=
  match findTemplate routes request.uri.path with
  | none => (.bare .notFound, site)
  | some m =>
    match routeAt routes m.template request.method with
    | some r => r.handler ⟨request, m.template, Http.decodeValues m.values, extensions⟩ site
    | none =>
      let allowed := allowText (atTemplate routes m.template)
      ((Http.Response.bare .methodNotAllowed).addHeader "allow" allowed, site)

def inside (layer : Layer σ) (routes : List (Route σ)) : List (Route σ) :=
  routes.map fun r => { r with handler := layer r.handler }

section Inside

variable (layer : Layer σ) (routes : List (Route σ)) (template : String)

theorem findTemplate_inside (path : List UInt8) :
    findTemplate (inside layer routes) path = findTemplate routes path := by
  simp only [findTemplate, inside, List.filterMap_map, Function.comp_def]

theorem atTemplate_inside :
    atTemplate (inside layer routes) template = inside layer (atTemplate routes template) := by
  simp only [atTemplate, inside, List.filter_map, Function.comp_def]

theorem routeAt_inside (method : Http.Method) :
    routeAt (inside layer routes) template method =
      (routeAt routes template method).map fun r => { r with handler := layer r.handler } := by
  rw [routeAt, atTemplate_inside, inside, List.find?_map]
  rfl

theorem allowText_inside : allowText (inside layer routes) = allowText routes := by
  simp only [allowText, inside, List.map_map, Function.comp_def]

theorem dispatch_inside (mark : Extensions → Extensions)
    (marks : ∀ next inbound,
      layer next inbound = next { inbound with extensions := mark inbound.extensions })
    (extensions : Extensions) (request : Http.Request) (site : Site σ) :
    dispatch (inside layer routes) extensions request site =
      dispatch routes (mark extensions) request site := by
  simp only [dispatch, findTemplate_inside]
  cases findTemplate routes request.uri.path with
  | none => rfl
  | some m =>
    simp only [routeAt_inside, atTemplate_inside, allowText_inside]
    cases routeAt routes m.template request.method with
    | none => rfl
    | some r => simp only [Option.map_some, marks]

end Inside

end Router

end TenantGate.Gate
