import TenantGate.Gate.Host

/-!
The route table and the router are filled by one loop, but looked up in two ways: the table by the
method of the record, the router by the method a handler is filed under and with `HEAD` served by
what serves `GET`. After any registrations both find the same operation under every method and path.
-/
namespace TenantGate

open Api Gate

namespace Api

variable {η : Type} {testing : Bool} {entries : List (Entry η)} {r : Registry η}

theorem toMethod_ne_head (m : OperationMethod) : m.toMethod ≠ .head := by
  cases m <;> decide

theorem toMethod_injective {m n : OperationMethod} (same : m.toMethod = n.toMethod) : m = n := by
  cases m <;> cases n <;> first | rfl | exact absurd same (by decide)

theorem lookupMethod_toMethod (m : OperationMethod) :
    RouteTable.lookupMethod m.toMethod = m.toMethod :=
  if_neg (toMethod_ne_head m)

theorem servesMethod_methodFilter (own : OperationMethod) (method : Http.Method) :
    Router.servesMethod (methodFilter own) method =
      (own.toMethod == RouteTable.lookupMethod method) := by
  unfold RouteTable.lookupMethod
  by_cases head : method = .head
  · subst head
    cases own <;> decide
  · have other : (method == .head) = false := by simpa using head
    rw [if_neg head]
    cases own <;> simp [Router.servesMethod, methodFilter, OperationMethod.toMethod, other]

namespace Entry

/-- The operations share their method and their path. -/
def SameRoute (e e' : Entry η) : Prop :=
  e.contract.method = e'.contract.method ∧ e.contract.path = e'.contract.path

def isFor (method : Http.Method) (path : String) (e : Entry η) : Bool :=
  e.contract.method.toMethod == RouteTable.lookupMethod method && e.contract.path == path

theorem isFor_iff (e : Entry η) (method : Http.Method) (path : String) :
    e.isFor method path = true ↔
      (e.contract.method.toMethod = method ∨ method = .head ∧ e.contract.method = .get) ∧
        e.contract.path = path := by
  simp only [isFor, Bool.and_eq_true, beq_iff_eq, RouteTable.lookupMethod]
  by_cases head : method = .head
  · subst head
    have never := toMethod_ne_head e.contract.method
    have onlyGet : e.contract.method.toMethod = .get ↔ e.contract.method = .get :=
      ⟨fun same => toMethod_injective (n := .get) same, fun same => by rw [same]; rfl⟩
    simp [never, onlyGet]
  · simp [head]

theorem isFor_own_iff (e old : Entry η) :
    old.isFor e.contract.method.toMethod e.contract.path = true ↔ old.SameRoute e := by
  simp only [isFor, lookupMethod_toMethod, Bool.and_eq_true, beq_iff_eq, SameRoute]
  constructor
  · rintro ⟨method, path⟩
    exact ⟨toMethod_injective method, path⟩
  · rintro ⟨method, path⟩
    exact ⟨congrArg _ method, path⟩

end Entry

def keptEntries (testing : Bool) (entries : List (Entry η)) : List (Entry η) :=
  entries.filter (·.isKept testing)

theorem keptEntries_snoc (testing : Bool) (entries : List (Entry η)) (e : Entry η) :
    keptEntries testing (entries ++ [e]) =
      keptEntries testing entries ++ if e.isKept testing then [e] else [] := by
  simp only [keptEntries, List.filter_append, List.filter_cons, List.filter_nil]

structure Built (testing : Bool) (entries : List (Entry η)) (r : Registry η) : Prop where
  table : r.table.routes = (keptEntries testing entries).map Entry.descriptor
  handlers : r.handlers = (keptEntries testing entries).map Entry.mount
  distinct : (keptEntries testing entries).Pairwise fun e e' => ¬ e.SameRoute e'

namespace Built

theorem empty : Built testing [] (Registry.empty : Registry η) := ⟨rfl, rfl, .nil⟩

theorem find? (built : Built testing entries r) (method : Http.Method) (path : String) :
    r.table.find? method path =
      ((keptEntries testing entries).find? (Entry.isFor method path)).map Entry.descriptor := by
  rw [RouteTable.find?, built.table, List.find?_map]
  rfl

theorem find?_own_isSome_iff (built : Built testing entries r) (e : Entry η) :
    (r.table.find? e.descriptor.method e.descriptor.path).isSome = true ↔
      ∃ old ∈ keptEntries testing entries, old.SameRoute e := by
  rw [built.find?, Option.isSome_map, List.find?_isSome]
  simp only [← Entry.isFor_own_iff]
  rfl

theorem register_error_iff (built : Built testing entries r) (e : Entry η) :
    (∃ f, r.register testing e = .error f) ↔
      e.isKept testing = true ∧ ∃ old ∈ keptEntries testing entries, old.SameRoute e := by
  rw [← built.find?_own_isSome_iff]
  simp only [Registry.register, RouteTable.insert]
  by_cases kept : e.isKept testing = true
  · by_cases taken : (r.table.find? e.descriptor.method e.descriptor.path).isSome = true
    · simp [kept, taken, Except.map]
    · simp [kept, taken, Except.map]
  · simp [kept]

theorem register (built : Built testing entries r) {e : Entry η} {r' : Registry η}
    (registered : r.register testing e = .ok r') : Built testing (entries ++ [e]) r' := by
  simp only [Registry.register, RouteTable.insert] at registered
  by_cases kept : e.isKept testing = true
  · simp only [kept, ↓reduceIte] at registered
    by_cases taken : (r.table.find? e.descriptor.method e.descriptor.path).isSome = true
    · simp [taken, Except.map] at registered
    · have free := mt (built.find?_own_isSome_iff e).mpr taken
      simp only [taken, Bool.false_eq_true, ↓reduceIte, Except.map, Except.ok.injEq] at registered
      subst registered
      refine ⟨?_, ?_, ?_⟩
      · simp [keptEntries_snoc, kept, built.table]
      · simp [keptEntries_snoc, kept, built.handlers]
      · rw [keptEntries_snoc, if_pos kept, List.pairwise_append]
        refine ⟨built.distinct, List.pairwise_singleton _ _, ?_⟩
        intro old member last same
        rw [List.mem_singleton] at same
        subst same
        exact fun shared => free ⟨old, member, shared⟩
  · simp only [kept, Bool.false_eq_true, ↓reduceIte, Except.ok.injEq] at registered
    subst registered
    have unchanged : keptEntries testing (entries ++ [e]) = keptEntries testing entries := by
      simp [keptEntries_snoc, kept]
    exact ⟨unchanged ▸ built.table, unchanged ▸ built.handlers, unchanged ▸ built.distinct⟩

theorem registerAll (built : Built testing entries r) {more : List (Entry η)} {r' : Registry η}
    (registered : r.registerAll testing more = .ok r') : Built testing (entries ++ more) r' := by
  induction more generalizing entries r with
  | nil =>
    simp only [Registry.registerAll, Except.ok.injEq] at registered
    simpa [← registered] using built
  | cons e more ih =>
    simp only [Registry.registerAll] at registered
    split at registered
    · rename_i next step
      have longer := ih (built.register step) registered
      simpa using longer
    · simp at registered

theorem find?_kept (built : Built testing entries r) {e : Entry η} (member : e ∈ entries)
    (kept : e.isKept testing = true) {method : Http.Method}
    (served : e.isFor method e.contract.path = true) :
    (keptEntries testing entries).find? (Entry.isFor method e.contract.path) = some e := by
  have there : e ∈ keptEntries testing entries := List.mem_filter.mpr ⟨member, kept⟩
  have distinct := built.distinct
  generalize keptEntries testing entries = present at there distinct ⊢
  induction present with
  | nil => simp at there
  | cons first rest ih =>
    rw [List.pairwise_cons] at distinct
    by_cases found : first.isFor method e.contract.path = true
    · rw [List.find?_cons_of_pos found]
      rcases List.mem_cons.mp there with same | later
      · rw [same]
      · simp only [Entry.isFor, Bool.and_eq_true, beq_iff_eq] at found served
        have shared : first.SameRoute e :=
          ⟨toMethod_injective (found.1.trans served.1.symm), found.2⟩
        exact absurd shared (distinct.1 e later)
    · rw [List.find?_cons_of_neg found]
      rcases List.mem_cons.mp there with same | later
      · exact absurd (same ▸ served) found
      · exact ih later distinct.2

end Built

end Api

namespace Gate

variable {σ : Type} {testing : Bool} {entries : List (Entry (Handler σ))}
  {r : Registry (Handler σ)}

def operationRoute (layers : List (Layer σ)) (e : Entry (Handler σ)) : Route σ :=
  ⟨e.contract.path, methodFilter e.contract.method, wrapAll layers e.handler⟩

theorem routeAt_layeredRoutes (built : Built testing entries r) (layers : List (Layer σ))
    (method : Http.Method) (path : String) :
    Router.routeAt (Host.layeredRoutes layers r) path method =
      ((keptEntries testing entries).find? (Entry.isFor method path)).map
        (operationRoute layers) := by
  simp only [Router.routeAt, Router.atTemplate, Host.layeredRoutes, built.handlers, List.map_map,
    List.find?_filter, List.find?_map]
  congr 1
  apply congrArg (List.find? · _)
  funext e
  simp only [Function.comp_apply, Entry.mount, servesMethod_methodFilter, Entry.isFor]
  rw [Bool.decide_and, Bool.decide_eq_true, Bool.decide_eq_true, Bool.and_comm]

theorem operationOf_mount (built : Built testing entries r) {m : Mount (Handler σ)}
    (registered : m ∈ r.handlers) {inbound : Inbound} (path : inbound.template = m.path)
    (method : Router.servesMethod m.method inbound.request.method = true) :
    ∃ e ∈ entries, e.mount = m ∧ operationOf r.table inbound = some e.descriptor := by
  rw [built.handlers] at registered
  obtain ⟨e, present, rfl⟩ := List.mem_map.mp registered
  obtain ⟨member, kept⟩ := List.mem_filter.mp present
  have served : e.isFor inbound.request.method e.contract.path = true := by
    simpa [Entry.isFor, Entry.mount, servesMethod_methodFilter] using method
  refine ⟨e, member, rfl, ?_⟩
  rw [operationOf, path, built.find?]
  exact congrArg (Option.map Entry.descriptor) (built.find?_kept member kept served)

/-- After any successful registrations the next one fails exactly if its method and path are taken,
and the router and the table find the same operation under every method and path. So the layers see
the record of every operation that is served, and nothing for tests is served in production. -/
theorem table_and_router_agree (testing : Bool) (entries : List (Entry (Handler σ)))
    (r : Registry (Handler σ)) (registered : Registry.empty.registerAll testing entries = .ok r)
    (layers : List (Layer σ)) :
    (∀ e, (∃ f, r.register testing e = .error f) ↔
      e.isKept testing = true ∧ ∃ old ∈ entries, old.isKept testing = true ∧ old.SameRoute e) ∧
    (∀ method path,
      ((Router.routeAt (Host.layeredRoutes layers r) path method).isSome = true ↔
        ∃ d, r.table.find? method path = some d) ∧
      ∀ d, r.table.find? method path = some d →
        ∃ e ∈ entries, e.isKept testing = true ∧ e.contract.path = path ∧
          Router.routeAt (Host.layeredRoutes layers r) path method =
            some (operationRoute layers e) ∧
          d = e.descriptor ∧ (d.method = method ∨ method = .head ∧ d.method = .get) ∧
          d.access = e.contract.access ∧ (d.requiresTenant = true ↔ e.requiresTenant = true)) ∧
    (∀ e ∈ entries, e.isKept testing = true → ∀ method,
      (e.contract.method.toMethod = method ∨ method = .head ∧ e.contract.method = .get) →
        r.table.find? method e.contract.path = some e.descriptor) ∧
    (∀ inbound,
      (Router.routeAt (Host.layeredRoutes layers r) inbound.template
        inbound.request.method).isSome = true →
        ∃ d, operationOf r.table inbound = some d) ∧
    (testing = false → (∀ d ∈ r.table.routes, d.testingOnly = false) ∧
      ∀ m ∈ r.handlers, ∃ e ∈ entries, e.mount = m ∧ e.contract.testingOnly = false) := by
  have built : Built testing entries r := Built.empty.registerAll registered
  refine ⟨?_, ?_, ?_, ?_, ?_⟩
  · intro e
    rw [built.register_error_iff]
    simp only [keptEntries, List.mem_filter, and_assoc]
  · intro method path
    rw [routeAt_layeredRoutes built, built.find?]
    cases found : (keptEntries testing entries).find? (Entry.isFor method path) with
    | none => simp
    | some e =>
      refine ⟨by simp, ?_⟩
      intro d same
      simp only [Option.map_some, Option.some.injEq] at same
      subst same
      obtain ⟨member, kept⟩ := List.mem_filter.mp (List.mem_of_find?_eq_some found)
      obtain ⟨served, here⟩ := (e.isFor_iff method path).mp (List.find?_some found)
      refine ⟨e, member, kept, here, rfl, rfl, ?_, rfl, Iff.rfl⟩
      rcases served with own | ⟨head, isGet⟩
      · exact .inl own
      · exact .inr ⟨head, congrArg OperationMethod.toMethod isGet⟩
  · intro e member kept method served
    rw [built.find?, built.find?_kept member kept ((e.isFor_iff _ _).mpr ⟨served, rfl⟩)]
    rfl
  · intro inbound served
    rw [routeAt_layeredRoutes built, Option.isSome_map, ← Option.isSome_map (f := Entry.descriptor),
      ← built.find?] at served
    exact Option.isSome_iff_exists.mp served
  · intro production
    have plain : ∀ e ∈ keptEntries testing entries, e ∈ entries ∧ e.contract.testingOnly = false := by
      intro e present
      obtain ⟨member, kept⟩ := List.mem_filter.mp present
      exact ⟨member, by simpa [Entry.isKept, production] using kept⟩
    rw [built.table, built.handlers]
    constructor
    · intro d listed
      obtain ⟨e, present, rfl⟩ := List.mem_map.mp listed
      exact (plain e present).2
    · intro m filed
      obtain ⟨e, present, same⟩ := List.mem_map.mp filed
      exact ⟨e, (plain e present).1, same, (plain e present).2⟩

/-- The operations of the host can be registered together, those for tests included. -/
theorem host_table_and_router_agree :
    ∃ r : Registry (Handler Unit), Registry.empty.registerAll true operations = .ok r ∧
      (∃ f, r.register true ⟨Contracts.recordCrash, true, Handlers.recordCrash⟩ = .error f) ∧
      ∀ inbound, (Router.routeAt (Host.layeredRoutes [] r) inbound.template
        inbound.request.method).isSome = true → ∃ d, operationOf r.table inbound = some d := by
  obtain ⟨r, registered⟩ : ∃ r : Registry (Handler Unit),
    Registry.empty.registerAll true operations = .ok r := ⟨_, rfl⟩
  obtain ⟨fails, _, _, seen, _⟩ := table_and_router_agree true operations r registered []
  refine ⟨r, registered, ?_, seen⟩
  rw [fails]
  exact ⟨rfl, _, List.mem_cons_self, rfl, rfl, rfl⟩

end Gate

end TenantGate
