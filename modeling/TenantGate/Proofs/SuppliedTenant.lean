import TenantGate.Proofs.Checkpoints
import TenantGate.Proofs.Percent
import TenantGate.Proofs.Trimming

/-!
Tenants that requests name in a header field. The field counts where the first of its values is
legible and not blank, and then the request gets to its handler with that tenant or not at all. With
any other first value the request goes on as if it had no such field, whatever the others say: with
the tenant of its query, with the default one, or with none.
-/
namespace TenantGate

open Gate Api

variable {σ : Type}

namespace Http

def fieldValues (headers : List Header) (name : String) : List (List UInt8) :=
  (headers.filter fun h => h.name == name).map (·.value)

theorem firstValue?_eq_head? (headers : List Header) (name : String) :
    firstValue? headers name = (fieldValues headers name).head? := by
  rw [firstValue?, fieldValues, List.head?_map, List.head?_filter]

namespace Header

def isBlankValue (value : List UInt8) : Bool := value.all fun b => b == 9 || b == 0x20

theorem isBlank_visible {b : UInt8} (visible : isVisibleByte b = true) :
    Text.isBlank (Char.ofNat b.toNat) = (b == 9 || b == 0x20) := by
  have small : b.toNat < 0x80 := by
    by_contra large
    have wide : ¬ b < 0x7F := by
      rw [UInt8.lt_iff_toNat_lt]
      simp only [UInt8.reduceToNat]
      omega
    have other : ¬ b = 9 := by
      rintro rfl
      exact large (by decide)
    simp [isVisibleByte, wide, other] at visible
  exact Text.forall_byte_below
    (fun b => isVisibleByte b = true →
      Text.isBlank (Char.ofNat b.toNat) = (b == 9 || b == 0x20)) 0x80 (by decide +kernel) b small
    visible

theorem visible_of_isBlankValue {value : List UInt8} (blank : isBlankValue value = true) :
    value.all isVisibleByte = true := by
  simp only [isBlankValue, List.all_eq_true, Bool.or_eq_true, beq_iff_eq] at blank ⊢
  intro b member
  rcases blank b member with rfl | rfl <;> rfl

theorem nonBlank?_asciiText {value : List UInt8} (visible : value.all isVisibleByte = true) :
    Text.nonBlank? (asciiText value) =
      if isBlankValue value then none else some (Text.trim (asciiText value)) := by
  have blank : (asciiText value).toList.all Text.isBlank = true ↔ isBlankValue value = true := by
    simp only [asciiText, String.toList_ofList, List.forall_mem_map, isBlankValue,
      List.all_eq_true]
    rw [List.all_eq_true] at visible
    exact forall₂_congr fun b member => by rw [isBlank_visible (visible b member)]
  rw [Text.nonBlank?_eq]
  simp only [blank]

end Header

end Http

namespace Detective

/-- The first value of the tenant's field that is not blank, whatever its bytes are. -/
def suppliedValue? (headers : List Http.Header) : Option (List UInt8) :=
  (Http.fieldValues headers header).find? fun value => !Http.Header.isBlankValue value

def tenantOf (value : List UInt8) : String := Text.trim (Http.Header.asciiText value)

structure Legible (headers : List Http.Header) (value : List UInt8) : Prop where
  first : Http.firstValue? headers header = some value
  visible : value.all Http.Header.isVisibleByte = true

variable {headers : List Http.Header} {value : List UInt8}

theorem first_of_supplied (supplied : suppliedValue? headers = some value) :
    ∃ front, Http.firstValue? headers header = some front ∧
      (front = value ∨ Http.Header.isBlankValue front = true) := by
  rw [suppliedValue?] at supplied
  rw [Http.firstValue?_eq_head?]
  cases listed : Http.fieldValues headers header with
  | nil =>
    rw [listed] at supplied
    exact absurd supplied (by simp)
  | cons front others =>
    refine ⟨front, rfl, ?_⟩
    rw [listed, List.find?_cons] at supplied
    split at supplied
    · exact .inl (Option.some.inj supplied)
    · rename_i blank
      exact .inr (by simpa using blank)

theorem not_blank_of_supplied (supplied : suppliedValue? headers = some value) :
    Http.Header.isBlankValue value = false := by
  have here := List.find?_some supplied
  simpa using here

theorem fromHeader_legible (supplied : suppliedValue? headers = some value)
    (legible : Legible headers value) : fromHeader headers = some (tenantOf value) := by
  rw [fromHeader, Http.firstText?, legible.first, Option.bind_some, Http.Header.text?,
    if_pos legible.visible, Option.bind_some, Http.Header.nonBlank?_asciiText legible.visible,
    not_blank_of_supplied supplied]
  rfl

theorem fromHeader_illegible (supplied : suppliedValue? headers = some value)
    (illegible : ¬ Legible headers value) : fromHeader headers = none := by
  obtain ⟨front, first, same | blank⟩ := first_of_supplied supplied
  · subst same
    have hidden : ¬ front.all Http.Header.isVisibleByte = true := fun visible =>
      illegible ⟨first, visible⟩
    rw [fromHeader, Http.firstText?, first, Option.bind_some, Http.Header.text?, if_neg hidden]
    rfl
  · have visible := Http.Header.visible_of_isBlankValue blank
    rw [fromHeader, Http.firstText?, first, Option.bind_some, Http.Header.text?, if_pos visible,
      Option.bind_some, Http.Header.nonBlank?_asciiText visible, if_pos blank]

end Detective

namespace Gate

/-- Which tenant a request gets to its handler with, by what it tells about its tenant: the one that
it names, the default one where one is required, or none. -/
inductive Forwarded (events : List Event) (inbound : Inbound) : Detection → Prop where
  | named (required : Bool) {tenancy : Tenancy}
      (held : inbound.extensions.tenancy? = some tenancy) :
      Forwarded events inbound ⟨required, some tenancy.tenantId⟩
  | byDefault {c : String} {user : User} {m : Membership} {tenancy : Tenancy}
      (reported : Event.memberships (.authenticated c) c (.ok user) ∈ events)
      (sole : user.SoleDefault m) (held : inbound.extensions.tenancy? = some tenancy)
      (same : tenancy.tenantId = m.organizationId) : Forwarded events inbound ⟨true, none⟩
  | untenanted (unset : inbound.extensions.tenancy? = none) :
      Forwarded events inbound ⟨false, none⟩

theorem Forwarded.mono {events events' : List Event} {inbound : Inbound} {detection : Detection}
    (forwarded : Forwarded events inbound detection) (more : events ⊆ events') :
    Forwarded events' inbound detection := by
  cases forwarded with
  | named required held => exact .named required held
  | byDefault reported sole held same => exact .byDefault (more reported) sole held same
  | untenanted unset => exact .untenanted unset

theorem Forwarded.tenancy {events : List Event} {inbound : Inbound} {detection : Detection}
    {t : String} (forwarded : Forwarded events inbound detection)
    (named : detection.tenantId = some t) :
    ∃ tenancy, inbound.extensions.tenancy? = some tenancy ∧ tenancy.tenantId = t := by
  cases forwarded with
  | named required held => exact ⟨_, held, Option.some.inj named⟩
  | byDefault | untenanted => exact absurd named (by simp)

theorem forwarded_of_decides {isValid : String → Bool} {answers : Resolver.Answers}
    {caller : Caller} {detection : Detection} {made : List Event} {result : Except Failure Outcome}
    (rule : Resolver.Decides isValid answers caller detection made result)
    {inbound inbound' : Inbound} (unset : inbound.extensions.tenancy? = none)
    (settled : Step.Settled inbound result (.ok inbound')) :
    Forwarded made inbound' detection := by
  have hydrated {t : String}
      (settled : Step.Settled inbound (Resolver.hydrated t (answers.settings t)) (.ok inbound')) :
      ∃ tenancy, inbound'.extensions.tenancy? = some tenancy ∧ tenancy.tenantId = t := by
    generalize ended : Resolver.hydrated t (answers.settings t) = result at settled
    cases settled with
    | forward => exact absurd ended (Resolver.hydrated_ne_forward _ _)
    | forwardWith tenancy => exact ⟨tenancy, rfl, Resolver.tenant_of_hydrated ended⟩
  cases rule with
  | anonymousMissing | invalid | notMember | memberFailed | noSoleDefault | defaultFailed =>
    cases settled
  | anonymousForward | authenticatedForward =>
    cases settled
    exact .untenanted unset
  | anonymousTenant required | member required =>
    obtain ⟨tenancy, held, rfl⟩ := hydrated settled
    exact .named required held
  | soleDefault _ sole =>
    obtain ⟨tenancy, held, same⟩ := hydrated settled
    exact .byDefault List.mem_cons_self sole held same

/-- A request that ends at its handler got there with the tenant of its detection. Before, it is
answered with a problem. -/
theorem forwarded_of_ends {table : RouteTable} {services : Services σ} {took : Durations}
    {e : Entry (Handler σ)} {inbound : Inbound} (fresh : inbound.extensions.tenancy? = none)
    {site : Site σ} {ending : Ending σ} (ends : Ends table services took e inbound site ending) :
    (∃ inbound', ending.events.filter Event.isHandling = [.handling inbound'] ∧
        Forwarded ending.events inbound' (detectionOf e.descriptor inbound)) ∨
      (ending.events.filter Event.isHandling = [] ∧
        ∃ p : Problem, ending.response = p.respond) := by
  have quiet := quiet_asked services inbound.request.headers site
  cases ends with
  | authentication unknown => exact .inr ⟨quiet, _, rfl⟩
  | access known guarded => exact .inr ⟨quiet, _, rfl⟩
  | tenancy resolved left =>
    obtain ⟨_, _, settled⟩ := resolved.decided
    exact .inr ⟨resolved.quiet, Step.problem_of_settled settled⟩
  | @handler caller s after made inbound' resolved left =>
    obtain ⟨_, rule, settled⟩ := resolved.decided
    have unset : (inbound.withCaller caller).extensions.tenancy? = none := fresh
    have forwarded := forwarded_of_decides rule unset settled
    refine .inl ⟨inbound', ?_, forwarded.mono ?_⟩
    · rw [List.filter_append, resolved.quiet]
      rfl
    · intro event among
      exact List.mem_append_left _ (List.mem_append_right _ among)

/-- A request for an operation, without a tenant in its path, that supplies one in a header field:
the field counts exactly if the first value that is not blank is legible and the first of all. Then
the request gets to its handler with the tenant that the value names, or it is answered with a
problem. Otherwise the field is overlooked, and the request gets there with the tenant of its query,
with the default one, or with none. -/
theorem supplied_tenant_counts_iff_legible {testing : Bool} {entries : List (Entry (Handler σ))}
    {registry : Registry (Handler σ)}
    (registered : Registry.empty.registerAll testing entries = .ok registry)
    (services : Services σ) (took : Durations) {request : Http.Request}
    {mount : Mount (Handler σ)} {inbound : Inbound}
    (requested : Host.operationFor? registry request = some (mount, inbound))
    (unrouted : Detective.fromRoute (inbound.values.toOption.getD []) = none)
    {value : List UInt8} (supplied : Detective.suppliedValue? request.headers = some value)
    (site : Site σ) :
    (Detective.fromHeader request.headers = some (Detective.tenantOf value) ↔
      Detective.Legible request.headers value) ∧
    (Detective.Legible request.headers value →
      (∃ inbound' tenancy,
        (servedEvents registry services took request site).filter Event.isHandling =
          [.handling inbound'] ∧
        inbound'.extensions.tenancy? = some tenancy ∧
        tenancy.tenantId = Detective.tenantOf value) ∨
      ((servedEvents registry services took request site).filter Event.isHandling = [] ∧
        ∃ p : Problem, (Host.serve registry services took request site).1 =
          Host.finished request p.respond)) ∧
    (¬ Detective.Legible request.headers value →
      ∃ e ∈ entries, e.mount = mount ∧
        ∀ inbound', .handling inbound' ∈ servedEvents registry services took request site →
          Forwarded (servedEvents registry services took request site) inbound'
            ⟨e.requiresTenant, Detective.fromQuery request.uri⟩) := by
  have built : Built testing entries registry := Built.empty.registerAll registered
  obtain ⟨same, e, member, filed, _, ending, ends, served, events, _⟩ :=
    served_ends built services took requested site
  obtain ⟨m, _, routed, _⟩ := Host.operationFor?_inbound requested
  have fresh : inbound.extensions.tenancy? = none := by
    rw [routed]
    rfl
  have detected : detectionOf e.descriptor inbound =
      ⟨e.requiresTenant,
        (Detective.fromHeader request.headers).or (Detective.fromQuery request.uri)⟩ := by
    simp only [detectionOf, Detective.detect, unrouted, same, Option.none_or]
    rfl
  have came := forwarded_of_ends fresh ends
  rw [detected] at came
  rw [served, events]
  refine ⟨⟨?_, Detective.fromHeader_legible supplied⟩, ?_, ?_⟩
  · intro counts
    by_contra illegible
    rw [Detective.fromHeader_illegible supplied illegible] at counts
    exact absurd counts (by simp)
  · intro legible
    rw [Detective.fromHeader_legible supplied legible] at came
    rcases came with ⟨inbound', single, forwarded⟩ | ⟨quiet, p, response⟩
    · left
      obtain ⟨tenancy, held, same⟩ := forwarded.tenancy rfl
      exact ⟨inbound', tenancy, single, held, same⟩
    · exact .inr ⟨quiet, p, by rw [response]⟩
  · intro illegible
    rw [Detective.fromHeader_illegible supplied illegible, Option.none_or] at came
    refine ⟨e, member, filed, ?_⟩
    intro inbound' handled
    -- There is one handling at most, so this is the one whose tenant is known.
    have here := List.mem_filter.mpr ⟨handled, (rfl : Event.isHandling (.handling inbound') = true)⟩
    rcases came with ⟨other, single, forwarded⟩ | ⟨quiet, _⟩
    · rw [single, List.mem_singleton, Event.handling.injEq] at here
      rw [here]
      exact forwarded
    · rw [quiet] at here
      exact absurd here List.not_mem_nil

/-- A report of a crash with the given fields for the tenant, and another tenant in its query. -/
def crashFor (fields : List String) : Http.Request :=
  ⟨.post, ⟨Utf8.encode Contracts.recordCrash.path, some (Utf8.encode "tenantId=org2")⟩,
    .ofText "content-type" "application/json" :: fields.map (.ofText Detective.header),
    Utf8.encode "\x7b\"message\":\"m\"\x7d"⟩

/-- Where a legible value stands first, the tenant of the query has no part in it. -/
theorem legible_tenant_is_kept :
    Registry.empty.registerAll false operations = .ok hostRegistry ∧
      Detective.suppliedValue? (crashFor ["org1"]).headers = some (Utf8.encode "org1") ∧
      ∃ mount inbound,
        Host.operationFor? hostRegistry (crashFor ["org1"]) = some (mount, inbound) ∧
        Detective.fromRoute (inbound.values.toOption.getD []) = none ∧
        ∃ inbound' tenancy,
          (servedEvents hostRegistry memberServices .instant (crashFor ["org1"])
            freshSite).filter Event.isHandling = [.handling inbound'] ∧
          inbound'.extensions.tenancy? = some tenancy ∧ tenancy.tenantId = "org1" := by
  have registered : Registry.empty.registerAll false operations = .ok hostRegistry := rfl
  have supplied : Detective.suppliedValue? (crashFor ["org1"]).headers =
      some (Utf8.encode "org1") := by decide +kernel
  have legible : Detective.Legible (crashFor ["org1"]).headers (Utf8.encode "org1") :=
    ⟨by decide +kernel, by decide +kernel⟩
  have found : (Host.operationFor? hostRegistry (crashFor ["org1"])).map (fun (_, inbound) =>
      Detective.fromRoute (inbound.values.toOption.getD [])) = some none := by decide +kernel
  obtain ⟨⟨mount, inbound⟩, requested, unrouted⟩ := Option.map_eq_some_iff.mp found
  obtain ⟨_, kept, _⟩ := supplied_tenant_counts_iff_legible registered memberServices .instant
    requested unrouted supplied freshSite
  refine ⟨registered, supplied, mount, inbound, requested, unrouted, ?_⟩
  rcases kept legible with ⟨inbound', tenancy, single, held, same⟩ | ⟨quiet, _⟩
  · exact ⟨inbound', tenancy, single, held, same.trans (by decide +kernel)⟩
  · have reached : ((servedEvents hostRegistry memberServices .instant (crashFor ["org1"])
        freshSite).filter Event.isHandling).isEmpty = false := by decide +kernel
    rw [quiet] at reached
    exact absurd reached (by decide)

def handledTenants (events : List Event) : List (Option String) :=
  events.filterMap fun event =>
    event.inbound?.map fun inbound => inbound.extensions.tenancy?.map (·.tenantId)

/-- A tenant is supplied by the fields, and the request is forwarded with that of its query. -/
def IsReplaced (fields : List String) : Prop :=
  (Host.operationFor? hostRegistry (crashFor fields)).map (fun (_, inbound) =>
      Detective.fromRoute (inbound.values.toOption.getD [])) = some none ∧
    (Detective.suppliedValue? (crashFor fields).headers).isSome = true ∧
    handledTenants (servedEvents hostRegistry memberServices .instant (crashFor fields)
      freshSite) = [some "org2"] ∧
    (Host.serve hostRegistry memberServices .instant (crashFor fields) freshSite).1.status = .ok

/-- A value beyond ASCII is overlooked, and so is one behind a blank one. -/
theorem overlooked_tenant_is_replaced : IsReplaced ["é"] ∧ IsReplaced [" ", "org1"] := by
  unfold IsReplaced
  decide +kernel

end Gate

end TenantGate
