import TenantGate.Proofs.Asking
import TenantGate.Proofs.Endpoints
import TenantGate.Proofs.Sendable

/-!
Clients that remember what they were told. Over any sequence of calls, what is remembered for a key
is the first answer to a call for that key that was no failure; a call is answered from memory
exactly if there is one. Every other call sends its own request, once, unless that request cannot
be put together, and ends with what becomes of it. So against services that give each key one
answer, remembering makes no difference to any call.
-/
namespace TenantGate.Service

open Net Auth

variable {ν : Type}

structure Clients where
  organizations : Client
  identity : Identity
deriving DecidableEq

inductive Lookup where
  | settings (caller : Caller) (tenantId : String)
  | verdict (token : String)

inductive Key where
  | settings (tenantId : String)
  | verdict (token : String)
deriving DecidableEq

inductive Told where
  | settings (settings : Settings)
  | verdict (verdict : Introspection)
deriving DecidableEq

def Lookup.key : Lookup → Key
  | .settings _ tenantId => .settings tenantId
  | .verdict token => .verdict token

def World.told? (w : World ν) : Key → Option Told
  | .settings tenantId => (w.settings.lookup tenantId).map .settings
  | .verdict token => (w.verdicts.lookup token).map .verdict

structure Record where
  lookup : Lookup
  answer : Except Failure Told
  sent : List Exchange

namespace Clients

def call (cs : Clients) (network : Network ν) : Lookup → Call (World ν) Told
  | .settings caller tenantId => do
    let settings ← (Backing.client cs.organizations).settings network caller tenantId false
    return .settings settings
  | .verdict token => do
    let verdict ← Backing.onVerdicts (cs.identity.introspect network token)
    return .verdict verdict

def fresh (cs : Clients) (network : Network ν) : Lookup → Call ν Told
  | .settings caller tenantId => do
    let settings ← cs.organizations.getJson network Settings.format caller
      ["private", "organizations", tenantId, "settings"] false
    return .settings settings
  | .verdict token => do
    let verdict ← cs.identity.ask network token
    return .verdict verdict

def ask (cs : Clients) (network : Network ν) (l : Lookup) (w : World ν) : Record × World ν :=
  let (answer, left) := cs.call network.noting l { w with network := (w.network, []) }
  (⟨l, answer, left.network.2⟩, { left with network := left.network.1 })

def run (cs : Clients) (network : Network ν) : List Lookup → World ν → List Record × World ν
  | [], w => ([], w)
  | l :: more, w =>
    let (record, w) := cs.ask network l w
    let (records, w) := cs.run network more w
    (record :: records, w)

def freshRun (cs : Clients) (network : Network ν) : List Lookup → ν → List (Except Failure Told)
  | [], _ => []
  | l :: more, n =>
    (cs.fresh network l n).1 :: cs.freshRun network more (cs.fresh network l n).2

def draft (cs : Clients) : Lookup → Draft
  | .settings caller tenantId => cs.organizations.draft caller (settingsPlace tenantId)
  | .verdict token => question cs.identity token

def received (cs : Clients) (l : Lookup) (sent : Except SendFault (Http.Status × List UInt8)) :
    Except Failure Told :=
  match l with
  | .settings _ tenantId =>
    (cs.organizations.received Settings.format (settingsPlace tenantId) sent).map .settings
  | .verdict _ => (Identity.received sent).map .verdict

end Clients

/-- The first answer for a key that was no failure. -/
def firstTold (key : Key) (records : List Record) : Option Told :=
  records.findSome? fun r => if r.lookup.key = key then r.answer.toOption else none

inductive Explained (cs : Clients) (network : Network ν) : Option Told → Record → Prop where
  | remembered {l : Lookup} (told : Told) : Explained cs network (some told) ⟨l, .ok told, []⟩
  | asked {l : Lookup} {request : Outgoing} (n : ν) (built : (cs.draft l).build = .ok request)
      (answered : (cs.fresh network l n).1 =
        cs.received l ((network request n).1.sent request)) :
      Explained cs network none
        ⟨l, (cs.fresh network l n).1, [⟨request, (network request n).1⟩]⟩
  | unbuilt {l : Lookup} {f : SendFault} {message : String} (n : ν)
      (unbuilt : (cs.draft l).build = .error f)
      (failed : (cs.fresh network l n).1 = .error (.serviceUnavailable message)) :
      Explained cs network none ⟨l, (cs.fresh network l n).1, []⟩

section Steps

variable {cs : Clients} {network : Network ν} {l : Lookup} {w : World ν} {told : Told}

theorem Clients.fresh_eq (n : ν) : cs.fresh network l n =
    (cs.received l (network.send (cs.draft l) n).1, (network.send (cs.draft l) n).2) := by
  cases l with
  | settings caller tenantId =>
    exact (Call.bind_pure_apply _ _ _).trans
      (congrArg (fun answer => (answer.1.map Told.settings, answer.2))
        (Client.getJson_going network cs.organizations Settings.format caller
          (settingsPlace tenantId) n))
  | verdict token =>
    exact (Call.bind_pure_apply _ _ _).trans
      (congrArg (fun answer => (answer.1.map Told.verdict, answer.2))
        (Identity.ask_eq network cs.identity token n))

theorem Clients.fresh_built {request : Outgoing} (built : (cs.draft l).build = .ok request)
    (n : ν) : (cs.fresh network l n).1 = cs.received l ((network request n).1.sent request) := by
  rw [fresh_eq, send_built built]

theorem Clients.fresh_unbuilt {f : SendFault} (unbuilt : (cs.draft l).build = .error f)
    (network : Network ν) (n : ν) :
    ∃ message, (cs.fresh network l n).1 = .error (.serviceUnavailable message) := by
  rw [fresh_eq, send_unbuilt unbuilt]
  cases l with
  | settings caller tenantId => exact ⟨_, rfl⟩
  | verdict token => exact ⟨_, rfl⟩

theorem Clients.call_known (known : w.told? l.key = some told) :
    cs.call network l w = (.ok told, w) := by
  cases l with
  | settings caller tenantId =>
    obtain ⟨settings, held, rfl⟩ := Option.map_eq_some_iff.mp known
    simp only [call]
    rw [Call.bind_pure_apply]
    simp only [Backing.settings, Backing.onSettings, Call.onPart, fetchSettings]
    rw [remembered_known held]
    rfl
  | verdict token =>
    obtain ⟨verdict, held, rfl⟩ := Option.map_eq_some_iff.mp known
    simp only [call]
    rw [Call.bind_pure_apply]
    simp only [Backing.onVerdicts, Call.onPart, Identity.introspect]
    rw [remembered_known held]
    rfl

theorem toOption_map {α β : Type} (answer : Except Failure α) (f : α → β) :
    (answer.map f).toOption = answer.toOption.map f := by
  cases answer <;> rfl

theorem Clients.call_unknown (network : Network ν) (l : Lookup) (w : World ν)
    (real : cs.identity.isMock = false) (unknown : w.told? l.key = none) :
    (cs.call network l w).1 = (cs.fresh network l w.network).1 ∧
      (cs.call network l w).2.network = (cs.fresh network l w.network).2 ∧
      ∀ key, (cs.call network l w).2.told? key =
        if l.key = key then (cs.fresh network l w.network).1.toOption else w.told? key := by
  cases l with
  | settings caller tenantId =>
    have absent := Option.map_eq_none_iff.mp unknown
    simp only [call, fresh]
    rw [Call.bind_pure_apply, Call.bind_pure_apply]
    simp only [Backing.settings, Backing.onSettings, Call.onPart, fetchSettings]
    rw [remembered_unknown absent]
    refine ⟨rfl, rfl, ?_⟩
    intro key
    cases key with
    | settings other =>
      simp only [World.told?, Lookup.key, Key.settings.injEq, lookup_kept absent, toOption_map,
        eq_comm (a := other)]
      split <;> rfl
    | verdict token => rfl
  | verdict token =>
    have absent := Option.map_eq_none_iff.mp unknown
    simp only [call, fresh]
    rw [Call.bind_pure_apply, Call.bind_pure_apply]
    simp only [Backing.onVerdicts, Call.onPart, Identity.introspect, real, Bool.false_eq_true,
      ↓reduceIte]
    rw [remembered_unknown absent]
    refine ⟨rfl, rfl, ?_⟩
    intro key
    cases key with
    | settings other => rfl
    | verdict other =>
      simp only [World.told?, Lookup.key, Key.verdict.injEq, lookup_kept absent, toOption_map,
        eq_comm (a := other)]
      split <;> rfl

theorem Clients.fresh_noting (n : ν) (exchanges : List Exchange) :
    cs.fresh network.noting l (n, exchanges) =
      ((cs.fresh network l n).1,
        ((cs.fresh network l n).2, exchanges ++ exchangesFor network (cs.draft l) n)) := by
  rw [fresh_eq, fresh_eq, send_noting]

theorem Clients.ask_explained (network : Network ν) (real : cs.identity.isMock = false)
    (l : Lookup) (w : World ν) :
    (cs.ask network l w).1.lookup = l ∧
      Explained cs network (w.told? l.key) (cs.ask network l w).1 ∧
      ∀ key, (cs.ask network l w).2.told? key = (w.told? key).or
        (if l.key = key then (cs.ask network l w).1.answer.toOption else none) := by
  refine ⟨rfl, ?_⟩
  cases known : w.told? l.key with
  | some told =>
    have called : cs.call network.noting l { w with network := (w.network, []) } =
        (.ok told, { w with network := (w.network, []) }) := call_known known
    simp only [ask, called]
    refine ⟨.remembered told, ?_⟩
    intro key
    by_cases same : l.key = key
    · rw [← same, known]
      rfl
    · rw [if_neg same, Option.or_none]
  | none =>
    obtain ⟨answer, left, held⟩ := call_unknown network.noting l { w with network := (w.network, []) }
      real known
    rw [fresh_noting] at answer left held
    constructor
    · have record : (cs.ask network l w).1 = ⟨l, (cs.fresh network l w.network).1,
          exchangesFor network (cs.draft l) w.network⟩ := by
        simp only [ask, answer, left, List.nil_append]
      rw [record]
      cases built : (cs.draft l).build with
      | error f =>
        obtain ⟨message, failed⟩ := fresh_unbuilt built network w.network
        rw [exchangesFor, built]
        exact .unbuilt w.network built failed
      | ok request =>
        rw [exchangesFor, built]
        exact .asked w.network built (fresh_built built w.network)
    · intro key
      have after := held key
      by_cases same : l.key = key
      · subst same
        rw [known, Option.none_or, if_pos rfl]
        rw [if_pos rfl] at after
        simp only [ask, answer]
        exact after
      · rw [if_neg same, Option.or_none]
        rw [if_neg same] at after
        exact after

theorem akin_noting (cs : Clients) (network : Network ν) (l : Lookup) :
    Call.Akin Eq (World.Beside fun noted n => noted.1 = n) (cs.call network.noting l)
      (cs.call network l) := by
  have sent (draft : Draft) (n : ν × List Exchange) (n' : ν) (same : n.1 = n') :
      (network.noting.send draft n).1 = (network.send draft n').1 ∧
        (network.noting.send draft n).2.1 = (network.send draft n').2 := by
    subst same
    rw [send_noting]
    exact ⟨rfl, rfl⟩
  cases l with
  | settings caller tenantId =>
    refine Call.akin_bind (akin_onSettings (akin_getJson Failure.kinship_eq ?_ false) tenantId)
      fun settings => Call.akin_done _
    intro n n' same
    obtain ⟨answer, left⟩ :=
      sent (cs.organizations.draft caller (settingsPlace tenantId)) n n' same
    exact ⟨answersAkin_eq_iff.mpr (congrArg _ answer), left⟩
  | verdict token =>
    refine Call.akin_bind (akin_onVerdicts ?_ token) fun verdict => Call.akin_done _
    intro n n' same
    obtain ⟨answer, left⟩ := sent (question cs.identity token) n n' same
    by_cases trusting : cs.identity.isMock = true
    · simp only [if_pos trusting]
      exact ⟨answersAkin_eq_iff.mpr rfl, same⟩
    · simp only [if_neg trusting, Identity.ask_eq]
      rw [answer]
      exact ⟨answersAkin_eq_iff.mpr rfl, left⟩

theorem Clients.ask_eq_call (l : Lookup) (w : World ν) :
    ((cs.ask network l w).1.answer, (cs.ask network l w).2) = cs.call network l w := by
  obtain ⟨answer, left⟩ := akin_noting cs network l
    { w with network := (w.network, []) } w ⟨rfl, rfl, rfl, rfl, rfl⟩
  obtain ⟨directory, verdicts, settings, failedCalls, network⟩ := left
  refine Prod.ext (answersAkin_eq_iff.mp answer) ?_
  simp only [ask, directory, verdicts, settings, failedCalls, network]

end Steps

section Runs

variable {cs : Clients} {network : Network ν}

theorem firstTold_cons (key : Key) (r : Record) (records : List Record) :
    firstTold key (r :: records) =
      (if r.lookup.key = key then r.answer.toOption else none).or (firstTold key records) := by
  simp only [firstTold, List.findSome?_cons]
  cases (if r.lookup.key = key then r.answer.toOption else none) <;> rfl

theorem Clients.run_told (real : cs.identity.isMock = false) (lookups : List Lookup) (w : World ν)
    (key : Key) :
    (cs.run network lookups w).2.told? key =
      (w.told? key).or (firstTold key (cs.run network lookups w).1) := by
  induction lookups generalizing w with
  | nil => exact (Option.or_none).symm
  | cons l more ih =>
    obtain ⟨own, _, held⟩ := ask_explained network real l w
    simp only [run]
    rw [ih, held, firstTold_cons, own, Option.or_assoc]

theorem Clients.run_lookups (lookups : List Lookup) (w : World ν) :
    (cs.run network lookups w).1.map Record.lookup = lookups := by
  induction lookups generalizing w with
  | nil => rfl
  | cons l more ih => exact congrArg (l :: ·) (ih (cs.ask network l w).2)

theorem Clients.run_explained (real : cs.identity.isMock = false) (lookups : List Lookup)
    (w : World ν) {before after : List Record} {r : Record}
    (split : (cs.run network lookups w).1 = before ++ r :: after) :
    Explained cs network ((w.told? r.lookup.key).or (firstTold r.lookup.key before)) r := by
  induction lookups generalizing w before with
  | nil => exact absurd split (by simp [run])
  | cons l more ih =>
    obtain ⟨own, explained, held⟩ := ask_explained network real l w
    simp only [run] at split
    cases before with
    | nil =>
      obtain ⟨first, _⟩ := List.cons.inj split
      rw [← first, own]
      simpa only [firstTold, List.findSome?_nil, Option.or_none] using explained
    | cons first earlier =>
      obtain ⟨rfl, rest⟩ := List.cons.inj split
      rw [firstTold_cons, own, ← Option.or_assoc, ← held]
      exact ih _ rest

/-- A call for the key for which something was sent, and which did not fail. -/
def AskedWell (key : Key) (r : Record) : Prop :=
  r.lookup.key = key ∧ r.sent ≠ [] ∧ ∃ told, r.answer = .ok told

instance (key : Key) (r : Record) : Decidable (AskedWell key r) :=
  decidable_of_iff (r.lookup.key = key ∧ r.sent.isEmpty = false ∧ r.answer.toOption.isSome = true)
    (by
      refine and_congr_right fun _ => and_congr ?_ ?_
      · cases r.sent <;> simp
      · cases r.answer <;> simp [Except.toOption])

theorem not_askedWell_of_told {told : Told} {r : Record}
    (explained : Explained cs network (some told) r) (key : Key) : ¬ AskedWell key r := by
  rintro ⟨_, sent, _⟩
  cases explained with
  | remembered _ => exact sent rfl

theorem Clients.run_askedWell (network : Network ν) (real : cs.identity.isMock = false)
    (lookups : List Lookup) (w : World ν) (key : Key) :
    ((cs.run network lookups w).1.filter (AskedWell key)).length ≤
      if (w.told? key).isSome then 0 else 1 := by
  induction lookups generalizing w with
  | nil => exact Nat.zero_le _
  | cons l more ih =>
    obtain ⟨own, explained, held⟩ := ask_explained network real l w
    have later := ih (cs.ask network l w).2
    simp only [run]
    by_cases well : AskedWell key (cs.ask network l w).1
    · rw [List.filter_cons_of_pos (by simpa using well)]
      obtain ⟨same, sent, told, answered⟩ := well
      rw [own] at same
      have unknown : w.told? key = none := by
        rw [← same]
        cases known : w.told? l.key with
        | none => rfl
        | some before =>
          rw [known] at explained
          exact absurd ⟨congrArg Lookup.key own, sent, told, answered⟩
            (not_askedWell_of_told explained l.key)
      have now : (cs.ask network l w).2.told? key = some told := by
        rw [held, unknown, if_pos same, answered]
        rfl
      rw [now] at later
      rw [unknown]
      simpa using later
    · rw [List.filter_cons_of_neg (by simpa using well)]
      refine later.trans ?_
      rw [held]
      cases w.told? key with
      | some before => simp
      | none =>
        rw [Option.none_or]
        cases if l.key = key then (cs.ask network l w).1.answer.toOption else none with
        | some now => exact Nat.zero_le _
        | none => exact Nat.le_refl _

/-- Whatever is asked for a key, and whenever, there is one answer. -/
def OneAnswer (cs : Clients) (network : Network ν) : Prop :=
  ∀ l l' request request' n n', l.key = l'.key → (cs.draft l).build = .ok request →
    (cs.draft l').build = .ok request' → (network request n).1 = (network request' n').1

def Clients.CanAsk (cs : Clients) (l : Lookup) : Prop := ∃ request, (cs.draft l).build = .ok request

theorem sent_of_address {request request' : Outgoing} (same : request.url = request'.url)
    (delivery : Delivery) : delivery.sent request = delivery.sent request' := by
  cases delivery with
  | refused => rw [Delivery.sent, Delivery.sent, same]
  | answered status body => rfl

theorem fresh_alike (one : OneAnswer cs network) {l l' : Lookup} (same : l.key = l'.key)
    (can : cs.CanAsk l) (can' : cs.CanAsk l') (n n' : ν) :
    (cs.fresh network l n).1 = (cs.fresh network l' n').1 := by
  obtain ⟨request, built⟩ := can
  obtain ⟨request', built'⟩ := can'
  rw [Clients.fresh_built built, Clients.fresh_built built']
  simp only [one l l' request request' n n' same built built']
  obtain ⟨url, given, address, _⟩ := url_of_build built
  obtain ⟨url', given', address', _⟩ := url_of_build built'
  cases l with
  | settings caller tenantId =>
    cases l' with
    | verdict token => exact Key.noConfusion same
    | settings caller' tenantId' =>
      obtain rfl := Key.settings.inj same
      have shared : request.url = request'.url := by
        rw [address, address', ← Except.ok.inj given, ← Except.ok.inj given']
      exact congrArg (cs.received (.settings caller tenantId)) (sent_of_address shared _)
  | verdict token =>
    cases l' with
    | settings caller' tenantId' => exact Key.noConfusion same
    | verdict token' =>
      obtain rfl := Key.verdict.inj same
      rw [Except.ok.inj (built.symm.trans built')]

/-- What is remembered is what a call for it would be told. -/
def Faithful (cs : Clients) (network : Network ν) (w : World ν) : Prop :=
  ∀ l told n, cs.CanAsk l → w.told? l.key = some told → (cs.fresh network l n).1 = .ok told

theorem Clients.run_eq_freshRun (real : cs.identity.isMock = false)
    (one : OneAnswer cs network) {lookups : List Lookup} (can : ∀ l ∈ lookups, cs.CanAsk l)
    {w : World ν} (faithful : Faithful cs network w) (n : ν) :
    (cs.run network lookups w).1.map Record.answer = cs.freshRun network lookups n := by
  induction lookups generalizing w n with
  | nil => rfl
  | cons l more ih =>
    have canNow := can l List.mem_cons_self
    have canLater := fun later among => can later (List.mem_cons_of_mem l among)
    obtain ⟨_, _, held⟩ := ask_explained network real l w
    have told : (cs.ask network l w).1.answer = (cs.fresh network l n).1 := by
      have called : (cs.ask network l w).1.answer = (cs.call network l w).1 :=
        congrArg Prod.fst (ask_eq_call l w)
      rw [called]
      cases known : w.told? l.key with
      | some told => rw [call_known known, faithful l told n canNow known]
      | none =>
        rw [(call_unknown network l w real known).1]
        exact fresh_alike one rfl canNow canNow _ _
    have faithfulLater : Faithful cs network (cs.ask network l w).2 := by
      intro other answer m canOther known
      rw [held] at known
      cases before : w.told? other.key with
      | some told =>
        rw [before] at known
        rw [← Option.some.inj known]
        exact faithful other told m canOther before
      | none =>
        rw [before, Option.none_or] at known
        split at known
        · rename_i same
          rw [← fresh_alike one same canNow canOther n m, ← told]
          cases answered : (cs.ask network l w).1.answer with
          | ok a =>
            rw [answered] at known
            rw [Option.some.inj known]
          | error f =>
            rw [answered] at known
            exact absurd known (by simp [Except.toOption])
        · exact absurd known (by simp)
    simp only [run, freshRun, List.map_cons]
    rw [told, ih canLater faithfulLater]

end Runs

structure Clients.Reachable (cs : Clients) : Prop where
  organizations : ∃ name address token, Client.create name address token = .ok cs.organizations
  web : cs.organizations.base.IsWeb
  sendable : isSendable cs.organizations.base = true
  identity : ∃ url, Url.parse (cs.identity.base ++ "/tokens/introspect") = .ok url ∧
    isSendable url = true
  real : cs.identity.isMock = false

/-- The credential and the caller of a lookup are values of headers, and the address of the tenant's
settings is not too long. -/
def Clients.Admits (cs : Clients) : Lookup → Prop
  | .settings caller tenantId =>
    (∀ token, cs.organizations.token = some token →
      (Http.Header.value? ("Bearer " ++ token)).isSome = true) ∧
    (∀ id, caller.id? = some id → (Http.Header.value? id).isSome = true) ∧
    (Utf8.encode (cs.organizations.endpoint (settingsPlace tenantId)).target.text).length ≤
      Http.Uri.greatestLength
  | .verdict _ => True

theorem clean_of_create {name address : String} {token : Option String} {c : Client}
    (created : Client.create name address token = .ok c) (web : c.base.IsWeb) :
    c.base.Clean := by
  simp only [Client.create] at created
  split at created
  · exact absurd created (by simp)
  · rename_i url parsed
    split at created
    · rw [← Except.ok.inj created] at web ⊢
      exact Url.clean_of_parse parsed web
    · exact absurd created (by simp)

theorem ofTexts?_isSome {name : String} (token : Http.isToken name = true) (value : String) :
    (Http.Header.ofTexts? name value).isSome = (Http.Header.value? value).isSome := by
  rw [Http.Header.ofTexts?, if_pos token, Option.isSome_map]

/-- The credential and the caller are values of headers, and the address can be sent to. -/
structure Client.CanAsk (c : Client) (caller : Caller) (segments : List String) : Prop where
  credential : ∀ token, c.token = some token →
    (Http.Header.value? ("Bearer " ++ token)).isSome = true
  caller : ∀ id, caller.id? = some id → (Http.Header.value? id).isSome = true
  address : isSendable (c.endpoint segments) = true

theorem Client.canAsk_iff (c : Client) (caller : Caller) (segments : List String) :
    (∃ request, (c.draft caller segments).build = .ok request) ↔ c.CanAsk caller segments := by
  have authorization := ofTexts?_isSome (show Http.isToken "authorization" = true by decide +kernel)
  have onBehalf := ofTexts?_isSome (show Http.isToken callerHeader = true by decide +kernel)
  rw [built_iff]
  simp only [Client.draft, Client.headersFor, Except.ok.injEq, exists_eq_left', List.mem_append,
    Option.mem_toList, Option.map_eq_some_iff, or_imp, forall_and, forall_exists_index, and_imp,
    forall_apply_eq_imp_iff₂, authorization, onBehalf]
  constructor
  · rintro ⟨address, credential, caller⟩
    exact ⟨credential, caller, address⟩
  · rintro ⟨credential, caller, address⟩
    exact ⟨address, credential, caller⟩

theorem Client.isSendable_endpoint {name address : String} {token : Option String} {c : Client}
    (created : Client.create name address token = .ok c) (web : c.base.IsWeb)
    (sendable : isSendable c.base = true) (segments : List String) :
    isSendable (c.endpoint segments) = true ↔
      (Utf8.encode (c.endpoint segments).target.text).length ≤ Http.Uri.greatestLength :=
  isSendable_extend (clean_of_create created web) sendable segments

theorem Clients.canAsk_iff {cs : Clients} (reachable : cs.Reachable) (l : Lookup) :
    cs.CanAsk l ↔ cs.Admits l := by
  cases l with
  | settings caller tenantId =>
    obtain ⟨name, address, token, created⟩ := reachable.organizations
    have short := Client.isSendable_endpoint created reachable.web reachable.sendable
      (settingsPlace tenantId)
    refine (Client.canAsk_iff cs.organizations caller (settingsPlace tenantId)).trans ?_
    constructor
    · rintro ⟨credential, caller, address⟩
      exact ⟨credential, caller, short.mp address⟩
    · rintro ⟨credential, caller, length⟩
      exact ⟨credential, caller, short.mpr length⟩
  | verdict token =>
    obtain ⟨url, parsed, sendable⟩ := reachable.identity
    rw [CanAsk, built_iff]
    refine iff_of_true ⟨url, parsed, sendable, ?_⟩ trivial
    intro header among
    rw [List.mem_singleton.mp among]
    decide +kernel

/-- With nothing remembered at the start, a call is answered from memory exactly if an earlier one
for its key was no failure, and then like the first of these; any other call sends the one request
that can be put together for it and ends with what becomes of that. So where each key has one
answer, the answers are those of clients that remember nothing. -/
theorem memories_make_no_difference (network : Network ν) {cs : Clients}
    (reachable : cs.Reachable) (lookups : List Lookup) (n : ν) :
    (cs.run network lookups (World.start n)).1.map Record.lookup = lookups ∧
    (∀ before r after,
      (cs.run network lookups (World.start n)).1 = before ++ r :: after →
        Explained cs network (firstTold r.lookup.key before) r) ∧
    (∀ key, (cs.run network lookups (World.start n)).2.told? key =
      firstTold key (cs.run network lookups (World.start n)).1) ∧
    (∀ key, ((cs.run network lookups (World.start n)).1.filter (AskedWell key)).length ≤ 1) ∧
    (∀ l, cs.CanAsk l ↔ cs.Admits l) ∧
    (OneAnswer cs network → (∀ l ∈ lookups, cs.Admits l) →
      (cs.run network lookups (World.start n)).1.map Record.answer =
        cs.freshRun network lookups n) := by
  have empty (key : Key) : (World.start n).told? key = none := by
    cases key <;> rfl
  have can := Clients.canAsk_iff reachable
  refine ⟨Clients.run_lookups _ _, ?_, ?_, ?_, can, ?_⟩
  · intro before r after split
    have explained := Clients.run_explained reachable.real lookups (World.start n) split
    rwa [empty, Option.none_or] at explained
  · intro key
    rw [Clients.run_told reachable.real, empty, Option.none_or]
  · intro key
    have once := Clients.run_askedWell network reachable.real lookups (World.start n) key
    rwa [empty] at once
  · intro one admitted
    refine Clients.run_eq_freshRun reachable.real one
      (fun l among => (can l).mpr (admitted l among)) ?_ n
    intro l told m _ known
    rw [empty] at known
    exact absurd known (by simp)

def organizationsBase : Url :=
  ⟨"http", [], none, some "organizations", none, ['/'], none, none, false⟩

def localClients (token : Option String) : Clients :=
  ⟨⟨organizationsName, organizationsBase, token⟩, ⟨"http://identity.local", false⟩⟩

theorem localClients_reachable (token : Option String) : (localClients token).Reachable := by
  have parsed : Url.parse "http://organizations" = .ok organizationsBase := by decide +kernel
  have sendable : isSendable organizationsBase = true := by decide +kernel
  have identity : Url.parse "http://identity.local/tokens/introspect" =
      .ok ⟨"http", [], none, some "identity.local", none, "/tokens/introspect".toList, none, none,
        false⟩ := by decide +kernel
  refine ⟨⟨organizationsName, "http://organizations", token, ?_⟩, .inl rfl, sendable,
    ⟨_, identity, by decide +kernel⟩, rfl⟩
  rw [Client.create, parsed]
  rfl

def emptyService : Network Unit := .answering "\x7b\x7d"

theorem settings_are_asked_for_once :
    let lookups : List Lookup := [.settings .anonymous "t", .verdict "u", .settings .anonymous "t"]
    (localClients none).Reachable ∧ OneAnswer (localClients none) emptyService ∧
      (∀ l ∈ lookups, (localClients none).Admits l) ∧
      ((localClients none).run emptyService lookups (World.start ())).1.map Record.answer =
        (localClients none).freshRun emptyService lookups () ∧
      ((localClients none).run emptyService lookups (World.start ())).1.map
        (fun r => (r.sent.length, r.answer.isOk)) = [(1, true), (1, false), (0, true)] := by
  have one : OneAnswer (localClients none) emptyService := fun _ _ _ _ _ _ _ _ _ => rfl
  have reachable := localClients_reachable none
  have admitted : ∀ l ∈ ([.settings .anonymous "t", .verdict "u", .settings .anonymous "t"] :
      List Lookup), (localClients none).Admits l := by
    have settings : (localClients none).Admits (.settings .anonymous "t") :=
      ⟨nofun, nofun, by decide +kernel⟩
    intro l among
    simp only [List.mem_cons, List.not_mem_nil, or_false] at among
    rcases among with rfl | rfl | rfl
    · exact settings
    · trivial
    · exact settings
  obtain ⟨_, _, _, _, _, same⟩ := memories_make_no_difference emptyService reachable
    [.settings .anonymous "t", .verdict "u", .settings .anonymous "t"] ()
  exact ⟨reachable, one, admitted, same one admitted, by decide +kernel⟩

theorem length_le_target {c : Client} (clean : c.base.Clean) (there : c.base.hasHost = true)
    {tenantId : String} (letters : tenantId.toList.all Identifier.isSmallLetter = true) :
    tenantId.toList.length ≤
      (Utf8.encode (c.endpoint (settingsPlace tenantId)).target.text).length := by
  have special := Url.special_of_web clean.web
  have other := Url.ne_file_of_web clean.web
  have opens (path : List Char) : path.length ≤ (opened path).length := by
    rw [opened]
    split
    · exact Nat.le_refl _
    · simp
  have longer := clean.extend (settingsPlace tenantId)
  have path : tenantId.toList.length ≤ (c.endpoint (settingsPlace tenantId)).path.length := by
    simp only [Client.endpoint, Url.extend, settingsPlace, List.foldl_cons, List.foldl_nil]
    rw [pushSegment_word special other _ "settings" (by decide),
      pushSegment_word special other _ tenantId letters, List.length_append]
    refine Nat.le_trans ?_ (Nat.le_trans (opens _) (Nat.le_add_right _ _))
    rw [List.length_append]
    exact Nat.le_add_left _ _
  refine Nat.le_trans path ?_
  have written : Utf8.encode (String.ofList (c.endpoint (settingsPlace tenantId)).path) =
      Utf8.asciiBytes (c.endpoint (settingsPlace tenantId)).path :=
    Utf8.encode_ascii _ fun d among => (longer.path d among).1
  have hosted : (c.endpoint (settingsPlace tenantId)).hasHost = true := there
  rw [Url.target_bytes hosted, Url.tailBytes, Utf8.encode_append (String.ofList _), written]
  simp only [List.length_append, Utf8.asciiBytes, List.length_map]
  omega

theorem overlong_is_not_sent {cs : Clients} (reachable : cs.Reachable) {tenantId : String}
    (letters : tenantId.toList.all Identifier.isSmallLetter = true)
    (long : Http.Uri.greatestLength < tenantId.toList.length) (network : Network ν)
    (caller : Caller) (n : ν) :
    ∀ r ∈ (cs.run network [.settings caller tenantId] (World.start n)).1,
      r.sent = [] ∧ ∃ message, r.answer = .error (.serviceUnavailable message) := by
  have refused : ¬ cs.CanAsk (.settings caller tenantId) := by
    rw [Clients.canAsk_iff reachable]
    rintro ⟨_, _, short⟩
    obtain ⟨_, _, _, created⟩ := reachable.organizations
    have there := reachable.sendable
    simp only [isSendable, Bool.and_eq_true] at there
    have held := length_le_target (clean_of_create created reachable.web) there.1.1 letters
    exact absurd (Nat.lt_of_lt_of_le long (Nat.le_trans held short)) (Nat.lt_irrefl _)
  intro r among
  obtain ⟨own, explained, _⟩ := Clients.ask_explained network reachable.real
    (.settings caller tenantId) (World.start n)
  have only : r = (cs.ask network (.settings caller tenantId) (World.start n)).1 :=
    List.mem_singleton.mp among
  rw [only]
  generalize (cs.ask network (.settings caller tenantId) (World.start n)).1 = record
    at own explained ⊢
  generalize told : (World.start n).told? (Lookup.settings caller tenantId).key = before
    at explained
  cases explained with
  | remembered known => exact absurd told (by simp [World.told?, World.start, Lookup.key])
  | asked m built =>
    rw [← own] at refused
    exact absurd ⟨_, built⟩ refused
  | unbuilt m none failed => exact ⟨rfl, _, failed⟩

def tenantOfLength (length : Nat) : String := String.ofList (List.replicate length 'a')

theorem tenantOfLength_letters (length : Nat) :
    (tenantOfLength length).toList.all Identifier.isSmallLetter = true := by
  rw [tenantOfLength, String.toList_ofList, List.all_eq_true]
  intro c among
  rw [List.eq_of_mem_replicate among]
  decide

theorem tenantOfLength_length (length : Nat) :
    (tenantOfLength length).toList.length = length := by
  rw [tenantOfLength, String.toList_ofList, List.length_replicate]

/-- Nothing is sent for the first call of clients with an unfit credential, of one for a tenant with
an endless identifier, or of one whose service has a name that requests cannot have. -/
theorem unbuilt_requests_are_not_sent :
    (localClients (some "a\nb")).Reachable ∧
    ((localClients (some "a\nb")).run emptyService [.settings .anonymous "t"]
      (World.start ())).1.map (fun r => (r.sent.length, r.answer.isOk)) = [(0, false)] ∧
    (localClients none).Reachable ∧
    (∀ r ∈ ((localClients none).run emptyService [.settings .anonymous (tenantOfLength 65535)]
      (World.start ())).1,
      r.sent = [] ∧ ∃ message, r.answer = .error (.serviceUnavailable message)) ∧
    (∃ url, Url.parse "http://a`b" = .ok url ∧ url.IsWeb) ∧
    ((⟨(localClients none).organizations, .create "http://a`b"⟩ : Clients).run emptyService
      [.verdict "u"] (World.start ())).1.map (fun r => (r.sent.length, r.answer.isOk)) =
        [(0, false)] :=
  ⟨localClients_reachable _, by decide +kernel, localClients_reachable _,
    overlong_is_not_sent (localClients_reachable none) (tenantOfLength_letters _)
      (by rw [tenantOfLength_length]; decide) emptyService .anonymous (),
    ⟨⟨"http", [], none, some "a`b", none, ['/'], none, none, false⟩, by decide +kernel, .inl rfl⟩,
    by decide +kernel⟩

end TenantGate.Service
