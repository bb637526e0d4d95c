import Mathlib.Data.List.Basic
import TenantGate.Api.RouteTable

/-!
What a table of operations holds after any insertions, refused ones among them. It is a map from
methods and paths to operations, in the order of their insertion, as far as it is looked up: what
is entered under `HEAD` is not found by any request, and a path that is entered under `GET` is taken
for `HEAD` as well.
-/
namespace TenantGate.Api.RouteTable

def offer (table : RouteTable) (d : Descriptor) : RouteTable :=
  match table.insert d with
  | .ok larger => larger
  | .error _ => table

def offerAll (table : RouteTable) (ds : List Descriptor) : RouteTable := ds.foldl offer table

def isAt (method : Http.Method) (path : String) (d : Descriptor) : Bool :=
  d.method == method && d.path == path

def Lists (table : RouteTable) (method : Http.Method) (path : String) : Prop :=
  ∃ d ∈ table.routes, d.method = method ∧ d.path = path

def occurrences (table : RouteTable) (method : Http.Method) (path : String) : Nat :=
  table.routes.countP (isAt method path)

/-- Every method and path that can be looked up has one operation at most. -/
def Distinct (table : RouteTable) : Prop :=
  ∀ method path, method ≠ .head → table.occurrences method path ≤ 1

variable {table larger : RouteTable} {d e : Descriptor} {method : Http.Method} {path : String}

section Lookup

theorem isAt_iff : isAt method path d = true ↔ d.method = method ∧ d.path = path := by
  simp only [isAt, Bool.and_eq_true, beq_iff_eq]

theorem lookupMethod_of_ne (other : method ≠ .head) : lookupMethod method = method := if_neg other

theorem find?_eq (table : RouteTable) (method : Http.Method) (path : String) :
    table.find? method path = table.routes.find? (isAt (lookupMethod method) path) := rfl

theorem find?_head (table : RouteTable) (path : String) :
    table.find? .head path = table.find? .get path := rfl

theorem find?_isSome_iff :
    (table.find? method path).isSome = true ↔ table.Lists (lookupMethod method) path := by
  simp only [find?_eq, List.find?_isSome, isAt_iff, Lists]

theorem lists_of_find? (found : table.find? method path = some d) :
    d ∈ table.routes ∧ d.method = lookupMethod method ∧ d.path = path :=
  ⟨List.mem_of_find?_eq_some found, isAt_iff.mp (List.find?_some found)⟩

theorem occurrences_eq_zero_iff : table.occurrences method path = 0 ↔ ¬ table.Lists method path := by
  simp only [occurrences, List.countP_eq_zero, isAt_iff, Lists, not_exists, not_and]

theorem find?_iff (distinct : table.Distinct) (other : method ≠ .head) :
    table.find? method path = some d ↔ d ∈ table.routes ∧ d.method = method ∧ d.path = path := by
  constructor
  · intro found
    have listed := lists_of_find? found
    rwa [lookupMethod_of_ne other] at listed
  · rintro ⟨member, own⟩
    rw [find?_eq, lookupMethod_of_ne other, List.find?_eq_some_iff_append]
    obtain ⟨before, behind, routes⟩ := List.append_of_mem member
    refine ⟨isAt_iff.mpr own, before, behind, routes, ?_⟩
    -- A second one before it would make two.
    have once := distinct method path other
    rw [occurrences, routes, List.countP_append, List.countP_cons_of_pos (isAt_iff.mpr own)] at once
    have none := List.countP_eq_zero.mp (show before.countP (isAt method path) = 0 by omega)
    intro earlier among
    simpa using none earlier among

end Lookup

section Insertion

theorem insert_error_iff :
    (∃ f, table.insert d = .error f) ↔ table.Lists (lookupMethod d.method) d.path := by
  rw [← find?_isSome_iff, insert]
  split <;> simp [*]

theorem insert_ok_iff :
    table.insert d = .ok larger ↔
      ¬ table.Lists (lookupMethod d.method) d.path ∧ larger = ⟨table.routes ++ [d]⟩ := by
  rw [← find?_isSome_iff, insert]
  split <;> simp [*, eq_comm]

theorem offer_eq_of_ok (inserted : table.insert d = .ok larger) : table.offer d = larger := by
  simp only [offer, inserted]

theorem offer_eq_of_error {f : Failure} (refused : table.insert d = .error f) :
    table.offer d = table := by
  simp only [offer, refused]

/-- An insertion keeps the table, or enters the operation behind all others where its method and
path are free. -/
theorem offer_cases (table : RouteTable) (d : Descriptor) :
    table.offer d = table ∨
      ¬ table.Lists (lookupMethod d.method) d.path ∧ table.offer d = ⟨table.routes ++ [d]⟩ := by
  cases result : table.insert d with
  | error f => exact .inl (offer_eq_of_error result)
  | ok larger =>
    obtain ⟨free, rfl⟩ := insert_ok_iff.mp result
    exact .inr ⟨free, offer_eq_of_ok result⟩

theorem find?_offer (found : table.find? method path = some e) :
    (table.offer d).find? method path = some e := by
  rcases offer_cases table d with same | ⟨-, entered⟩
  · rwa [same]
  · rw [entered, find?_eq, List.find?_append, ← find?_eq, found]
    rfl

theorem find?_offerAll (found : table.find? method path = some e) (ds : List Descriptor) :
    (table.offerAll ds).find? method path = some e := by
  induction ds generalizing table with
  | nil => exact found
  | cons d ds ih => exact ih (find?_offer found)

theorem Distinct.offer (distinct : table.Distinct) (d : Descriptor) :
    (table.offer d).Distinct := by
  rcases offer_cases table d with same | ⟨free, entered⟩
  · rwa [same]
  · intro method path other
    rw [entered, occurrences, List.countP_append, List.countP_singleton]
    by_cases own : isAt method path d = true
    · obtain ⟨rfl, rfl⟩ := isAt_iff.mp own
      rw [lookupMethod_of_ne other, ← occurrences_eq_zero_iff, occurrences] at free
      simp only [free, own, ↓reduceIte, Nat.zero_add, Nat.le_refl]
    · rw [if_neg own, Nat.add_zero]
      exact distinct method path other

theorem Distinct.offerAll (distinct : table.Distinct) (ds : List Descriptor) :
    (table.offerAll ds).Distinct := by
  induction ds generalizing table with
  | nil => exact distinct
  | cons d ds ih => exact ih (distinct.offer d)

theorem empty_distinct : empty.Distinct := fun _ _ _ => Nat.zero_le 1

end Insertion

structure Entered (table : RouteTable) (d : Descriptor) (larger : RouteTable) : Prop where
  routes : larger.routes = table.routes ++ [d]
  length : larger.length = table.length + 1
  /-- The operation is found from then on, whatever else is inserted. -/
  found : d.method ≠ .head → ∀ later, (larger.offerAll later).find? d.method d.path = some d
  others : ∀ method path, method ≠ .head → (method, path) ≠ (d.method, d.path) →
    larger.find? method path = table.find? method path

theorem entered_of_insert (inserted : table.insert d = .ok larger) : Entered table d larger := by
  obtain ⟨free, rfl⟩ := insert_ok_iff.mp inserted
  refine ⟨rfl, ?_, ?_, ?_⟩
  · simp only [length, List.length_append, List.length_singleton]
  · intro other later
    apply find?_offerAll
    rw [find?_eq, List.find?_append, ← find?_eq]
    have new : table.find? d.method d.path = none := by
      rwa [← Option.not_isSome_iff_eq_none, find?_isSome_iff]
    have own : isAt (lookupMethod d.method) d.path d = true :=
      isAt_iff.mpr ⟨(lookupMethod_of_ne other).symm, rfl⟩
    rw [new, List.find?_singleton, if_pos own]
    rfl
  · intro method path other elsewhere
    have away : ¬ isAt (lookupMethod method) path d = true := by
      rw [isAt_iff, lookupMethod_of_ne other]
      rintro ⟨rfl, rfl⟩
      exact elsewhere rfl
    rw [find?_eq, List.find?_append, ← find?_eq, List.find?_singleton, if_neg away, Option.or_none]

structure IsMap (table : RouteTable) : Prop where
  once : table.Distinct
  found_iff : ∀ method path d, method ≠ .head →
    (table.find? method path = some d ↔ d ∈ table.routes ∧ d.method = method ∧ d.path = path)
  head_as_get : ∀ path, table.find? .head path = table.find? .get path
  refused_iff : ∀ d, d.method ≠ .head →
    ((∃ f, table.insert d = .error f) ↔ table.Lists d.method d.path)
  head_refused : ∀ d, d.method = .head → table.Lists .get d.path →
    ∃ f, table.insert d = .error f
  head_free : ∀ d, d.method = .head → ¬ table.Lists .get d.path → ¬ table.Lists .head d.path →
    ∃ larger, table.insert d = .ok larger
  unchanged : ∀ d f, table.insert d = .error f → table.offer d = table
  entered : ∀ d larger, table.insert d = .ok larger →
    table.offer d = larger ∧ Entered table d larger

/-- Whatever is inserted in an empty table, in any order and as often as may be, the table is a map
of the methods and paths that are looked up. -/
theorem isMap_of_insertions (ds : List Descriptor) : (empty.offerAll ds).IsMap := by
  have distinct := empty_distinct.offerAll ds
  refine ⟨distinct, fun _ _ _ => find?_iff distinct, find?_head _, ?_, ?_, ?_,
    fun _ _ => offer_eq_of_error, fun _ _ ok => ⟨offer_eq_of_ok ok, entered_of_insert ok⟩⟩
  · intro d other
    rw [insert_error_iff, lookupMethod_of_ne other]
  · intro d head taken
    rw [insert_error_iff, head]
    exact taken
  · intro d head free _
    refine ⟨_, insert_ok_iff.mpr ⟨?_, rfl⟩⟩
    rw [head]
    exact free

def watch (method : Http.Method) : Descriptor := ⟨"Watch", method, "/w", .token, false, false⟩

/-- The path that is entered under `GET` is refused for `HEAD`, which it is not entered under. What
is entered under `HEAD` alone is not found there. -/
theorem head_is_no_key :
    ((∃ f, (empty.offerAll [watch .get]).insert (watch .head) = .error f) ∧
        ¬ (empty.offerAll [watch .get]).Lists .head "/w") ∧
      ∃ larger, empty.insert (watch .head) = .ok larger ∧ larger.find? .head "/w" = none :=
  ⟨⟨⟨_, rfl⟩, occurrences_eq_zero_iff.mp rfl⟩, _, rfl, rfl⟩

end TenantGate.Api.RouteTable
