import TenantGate.Proofs.JsonOutcomes
import TenantGate.Proofs.Memories

/-!
What becomes of one call on a service. A call makes one request at most, and makes it exactly if
the request can be put together; its end is read off what is delivered for that request. A body
counts only where it is one value of the format that is asked for, with nothing but white space
around it. Whatever else happens, the service is unavailable.
-/
namespace TenantGate

open Net

namespace Json

def Format.Decodes {α : Type} (format : Format α) (body : List UInt8) (a : α) : Prop :=
  ∃ behind : Cursor, format.read (.ofBytes body) = .ok (a, behind) ∧
    ∀ b ∈ behind.rest, isSpace b = true

theorem trim_rest_eq_nil_iff (rest : List UInt8) (place : Place) :
    (Cursor.trim ⟨rest, place⟩).rest = [] ↔ ∀ b ∈ rest, isSpace b = true := by
  induction rest generalizing place with
  | nil => simp [Cursor.trim, skipSpace]
  | cons b rest ih =>
    cases space : isSpace b with
    | true => rw [trim_space space, ih, List.forall_mem_cons, and_iff_right space]
    | false => simp [trim_cons space, space]

theorem Format.readBytes_ok_iff {α : Type} (format : Format α) (body : List UInt8) (a : α) :
    format.readBytes body = .ok a ↔ format.Decodes body a := by
  simp only [Format.readBytes, Decodes]
  cases read : format.read (.ofBytes body) with
  | error fault => simp [bind, Except.bind]
  | ok result =>
    obtain ⟨value, behind⟩ := result
    have blank := trim_rest_eq_nil_iff behind.rest behind.place
    simp only [bind, Except.bind, Except.ok.injEq, Prod.mk.injEq, and_assoc, exists_and_left,
      exists_eq_left']
    rw [← blank]
    cases behind.trim.rest with
    | nil => simp
    | cons b rest => simp [Cursor.blame]

end Json

namespace Net

/-- The header values of a request that is put together are the texts of its draft, behind the user
of its address. -/
theorem headers_of_build {draft : Draft} {request : Outgoing}
    (built : draft.build = .ok request) :
    ∃ url : Url, request.headers = url.userHeader.toList ++
      draft.headers.map fun header => .ofText header.1.toLower header.2 := by
  have own {name value : String} {header : Http.Header}
      (made : Http.Header.ofTexts? name value = some header) :
      header = .ofText name.toLower value := by
    simp only [Http.Header.ofTexts?, Http.Header.value?] at made
    split at made
    · split at made
      · exact (Option.some.inj made).symm
      · exact absurd made (by simp)
    · exact absurd made (by simp)
  have each {texts : List (String × String)} {headers : List Http.Header}
      (made : texts.mapM (fun header => Http.Header.ofTexts? header.1 header.2) = some headers) :
      headers = texts.map fun header => .ofText header.1.toLower header.2 := by
    induction texts generalizing headers with
    | nil =>
      rw [List.mapM_nil] at made
      exact (Option.some.inj made).symm
    | cons text texts ih =>
      rw [List.mapM_cons] at made
      obtain ⟨header, first, made⟩ := Option.bind_eq_some_iff.mp made
      obtain ⟨more, others, whole⟩ := Option.bind_eq_some_iff.mp made
      rw [← Option.some.inj whole, own first, ih others, List.map_cons]
  simp only [Draft.build] at built
  split at built
  · exact absurd built (by simp)
  · split at built
    · exact absurd built (by simp)
    · split at built
      · exact absurd built (by simp)
      · rename_i headers made
        split at built
        · rw [← Except.ok.inj built, each made]
          exact ⟨_, rfl⟩
        · exact absurd built (by simp)

theorem userHeader_apart {url : Url} {header : Http.Header} (known : url.userHeader = some header) :
    header.name = "authorization" ∧ (Utf8.encode "Bearer ").isPrefixOf header.value = false := by
  obtain ⟨user, _, known⟩ := Option.bind_eq_some_iff.mp known
  dsimp only at known
  split at known
  · exact absurd known (by simp)
  · rw [← Option.some.inj known]
    refine ⟨rfl, ?_⟩
    have marks : Utf8.encode "Bearer " = [0x42, 0x65, 0x61, 0x72, 0x65, 0x72, 0x20] ∧
        Utf8.encode "Basic " = [0x42, 0x61, 0x73, 0x69, 0x63, 0x20] := by decide +kernel
    rw [Http.Header.ofText, Utf8.encode_append, marks.1, marks.2]
    rfl

def Outgoing.valuesOf (request : Outgoing) (name : String) : List (List UInt8) :=
  (request.headers.filter (·.name == name)).map (·.value)

def Outgoing.bearers (request : Outgoing) : List (List UInt8) :=
  (request.valuesOf "authorization").filter (Utf8.encode "Bearer ").isPrefixOf

end Net

namespace Service.Client

variable {ν α : Type}

/-- The request asks for the resource: on behalf of the caller where there is one, and with the
credential of the host where it has one. -/
structure AskedBy (c : Client) (caller : Caller) (segments : List String) (request : Outgoing) :
    Prop where
  method : request.method = .get
  address : request.url = (c.endpoint segments).withoutUser
  empty : request.body = ""
  caller : request.valuesOf callerHeader = caller.id?.toList.map Utf8.encode
  credential : request.bearers = c.token.toList.map fun token => Utf8.encode ("Bearer " ++ token)

structure Classified (c : Client) (format : Json.Format α) (caller : Caller)
    (segments : List String) (answer : Except Failure α) (sent : List Exchange) : Prop where
  value : ∀ a, answer = .ok a ↔ ∃ x ∈ sent, ∃ status body,
    x.delivery = .answered status body ∧ status.isSuccess = true ∧ format.Decodes body a
  absent : (∃ message, answer = .error (.notFound message)) ↔
    ∃ x ∈ sent, ∃ body, x.delivery = .answered .notFound body
  otherwise : (∀ a, answer ≠ .ok a) → (∀ message, answer ≠ .error (.notFound message)) →
    ∃ message, answer = .error (.serviceUnavailable message)
  once : sent.length ≤ 1
  sent_iff : sent.length = 1 ↔ c.CanAsk caller segments
  asked : ∀ x ∈ sent, AskedBy c caller segments x.request

theorem bearer_mark (token : String) :
    (Utf8.encode "Bearer ").isPrefixOf (Utf8.encode ("Bearer " ++ token)) = true := by
  rw [Utf8.encode_append, List.isPrefixOf_iff_prefix]
  exact List.prefix_append _ _

theorem askedBy_of_build {c : Client} {caller : Caller} {segments : List String}
    {request : Outgoing} (built : (c.draft caller segments).build = .ok request) :
    AskedBy c caller segments request := by
  obtain ⟨url, own, address, method, body⟩ := url_of_build built
  obtain ⟨addressed, headers⟩ := headers_of_build built
  have drafted : ((c.draft caller segments).headers.map fun header =>
        Http.Header.ofText header.1.toLower header.2) =
      (c.token.toList.map fun token => .ofText "authorization" ("Bearer " ++ token)) ++
        caller.id?.toList.map fun id => .ofText callerHeader id := by
    have authorization : "authorization".toLower = "authorization" := by decide +kernel
    have onBehalf : callerHeader.toLower = callerHeader := by decide +kernel
    cases hasToken : c.token <;> cases hasId : caller.id? <;>
      simp [draft, headersFor, hasToken, hasId, authorization, onBehalf]
  rw [drafted] at headers
  have apart : ("authorization" == callerHeader) = false := by decide +kernel
  have apart' : (callerHeader == "authorization") = false := by decide +kernel
  have user : ∀ header ∈ addressed.userHeader.toList, header.name = "authorization" ∧
      (Utf8.encode "Bearer ").isPrefixOf header.value = false := fun header among =>
    userHeader_apart (Option.mem_toList.mp among)
  refine ⟨method, ?_, body, ?_, ?_⟩
  · rw [address, ← Except.ok.inj own]
  · have foreign : addressed.userHeader.toList.filter (·.name == callerHeader) = [] := by
      rw [List.filter_eq_nil_iff]
      intro header among
      rw [(user header among).1, apart]
      decide
    rw [Outgoing.valuesOf, headers, List.filter_append, foreign]
    cases c.token <;> cases caller.id? <;> simp [Http.Header.ofText, apart]
  · have unborne : (((addressed.userHeader.toList.filter (·.name == "authorization")).map
        (·.value)).filter (Utf8.encode "Bearer ").isPrefixOf) = [] := by
      rw [List.filter_eq_nil_iff]
      intro value among
      obtain ⟨header, listed, rfl⟩ := List.mem_map.mp among
      rw [(user header (List.mem_filter.mp listed).1).2]
      decide
    rw [Outgoing.bearers, Outgoing.valuesOf, headers, List.filter_append, List.map_append,
      List.filter_append, unborne]
    cases c.token <;> cases caller.id? <;> simp [Http.Header.ofText, apart', bearer_mark]

theorem received_classified (c : Client) (format : Json.Format α) (segments : List String)
    (request : Outgoing) (delivery : Delivery) :
    let answer := c.received format segments (delivery.sent request)
    (∀ a, answer = .ok a ↔ ∃ status body,
      delivery = .answered status body ∧ status.isSuccess = true ∧ format.Decodes body a) ∧
    ((∃ message, answer = .error (.notFound message)) ↔
      ∃ body, delivery = .answered .notFound body) ∧
    ((∀ a, answer ≠ .ok a) → (∀ message, answer ≠ .error (.notFound message)) →
      ∃ message, answer = .error (.serviceUnavailable message)) := by
  simp only [← Json.Format.readBytes_ok_iff]
  cases delivery with
  | refused => simp [Delivery.sent, received]
  | answered status body =>
    simp only [Delivery.sent, received, readAnswer]
    by_cases absent : status = .notFound
    · subst absent
      have failure : Http.Status.notFound.isSuccess = false := by decide
      simp [failure]
    · by_cases success : status.isSuccess = true
      · cases read : format.readBytes body <;> simp [absent, success, read]
      · simp [absent, success]

theorem getJson_unable (network : Network ν) {c : Client} (format : Json.Format α)
    {caller : Caller} {segments : List String} (unable : ¬ c.CanAsk caller segments) (n : ν) :
    ∃ message, c.getJson network.noting format caller segments false (n, []) =
      (.error (.serviceUnavailable message), (n, [])) := by
  rw [← canAsk_iff] at unable
  cases built : (c.draft caller segments).build with
  | ok request => exact absurd ⟨request, built⟩ unable
  | error f =>
    rw [getJson_going, send_unbuilt built]
    exact ⟨_, rfl⟩

theorem getJson_able (network : Network ν) {c : Client} (format : Json.Format α)
    {caller : Caller} {segments : List String} (able : c.CanAsk caller segments) (n : ν) :
    ∃ request, (c.draft caller segments).build = .ok request ∧
      c.getJson network.noting format caller segments false (n, []) =
        (c.received format segments ((network request n).1.sent request),
          ((network request n).2, [⟨request, (network request n).1⟩])) := by
  obtain ⟨request, built⟩ := (canAsk_iff c caller segments).mpr able
  exact ⟨request, built, by rw [getJson_going, send_built built]; rfl⟩

/-- A call on a service ends as what is delivered for its one request says. One whose request is
cancelled beforehand sends nothing. -/
theorem calls_are_classified (network : Network ν) (c : Client) (format : Json.Format α)
    (caller : Caller) (segments : List String) (n : ν) :
    let ended := c.getJson network.noting format caller segments false (n, [])
    Classified c format caller segments ended.1 ended.2.2 ∧
    c.getJson network.noting format caller segments true (n, []) = (.error .cancelled, (n, [])) ∧
    (∀ name address token, Client.create name address token = .ok c → c.base.IsWeb →
      isSendable c.base = true →
      (isSendable (c.endpoint segments) = true ↔
        (Utf8.encode (c.endpoint segments).target.text).length ≤ Http.Uri.greatestLength)) := by
  refine ⟨?_, rfl, fun _ _ _ created web sendable =>
    isSendable_endpoint created web sendable segments⟩
  by_cases able : c.CanAsk caller segments
  · obtain ⟨request, built, ended⟩ := getJson_able network format able n
    obtain ⟨value, absent, otherwise⟩ :=
      received_classified c format segments request (network request n).1
    rw [ended]
    exact ⟨by simpa using value, by simpa using absent, otherwise, by simp, by simp [able],
      by simpa using askedBy_of_build built⟩
  · obtain ⟨message, ended⟩ := getJson_unable network format able n
    rw [ended]
    exact ⟨by simp, by simp, fun _ _ => ⟨_, rfl⟩, by simp, by simp [able], by simp⟩

/-- Anonymous callers of a service without a credential need no headers. Still nothing is sent
where the address would be too long, which makes the service unavailable. -/
theorem overlong_addresses_are_not_sent :
    let c := (localClients none).organizations
    let place := settingsPlace (tenantOfLength 65535)
    c.headersFor .anonymous = [] ∧
      ∃ message, c.getJson emptyService.noting Settings.format .anonymous place false ((), []) =
        (.error (.serviceUnavailable message), ((), [])) := by
  refine ⟨rfl, getJson_unable emptyService Settings.format ?_ ()⟩
  rintro ⟨_, _, sendable⟩
  have reachable := localClients_reachable none
  obtain ⟨_, _, _, created⟩ := reachable.organizations
  have clean := clean_of_create created reachable.web
  have short := (isSendable_extend clean reachable.sendable _).mp sendable
  have held := length_le_target clean (by decide) (tenantOfLength_letters 65535)
  rw [tenantOfLength_length] at held
  exact absurd (Nat.le_trans held short) (by decide)

end Service.Client

end TenantGate
