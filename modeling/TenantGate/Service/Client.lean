import TenantGate.Auth.Bearer
import TenantGate.Call
import TenantGate.Net.Network
import TenantGate.Tenant.Tenancy

/-!
A memory of answers by key. Nothing is ever forgotten, and what failed is never remembered.
-/
namespace TenantGate.Service

abbrev Cache (α : Type) := List (String × α)

/-- Answers from the memory, or makes the call and remembers its answer. -/
def remembered {σ α : Type} (key : String) (call : Call σ α) : Call (Cache α × σ) α :=
  fun (cache, s) =>
    match cache.lookup key with
    | some a => (.ok a, (cache, s))
    | none =>
      match call s with
      | (.ok a, s) => (.ok a, (insertEntry key a cache, s))
      | (.error f, s) => (.error f, (cache, s))

def kept {α : Type} (key : String) (answer : Except Failure α) (cache : Cache α) : Cache α :=
  match answer with
  | .ok a => insertEntry key a cache
  | .error _ => cache

section Remembered

variable {σ α : Type} {key : String} {cache : Cache α} {s : σ}

theorem remembered_known {a : α} (known : cache.lookup key = some a) (call : Call σ α) :
    remembered key call (cache, s) = (.ok a, (cache, s)) := by
  simp only [remembered, known]

theorem remembered_unknown (unknown : cache.lookup key = none) (call : Call σ α) :
    remembered key call (cache, s) = ((call s).1, (kept key (call s).1 cache, (call s).2)) := by
  simp only [remembered, unknown]
  rcases call s with ⟨_ | _, _⟩ <;> rfl

theorem lookup_kept (unknown : cache.lookup key = none) (answer : Except Failure α)
    (other : String) :
    (kept key answer cache).lookup other =
      if other = key then answer.toOption else cache.lookup other := by
  cases answer with
  | ok a => exact lookup_insertEntry key other a cache
  | error f =>
    by_cases same : other = key
    · rw [if_pos same, same]
      exact unknown
    · rw [if_neg same]
      rfl

theorem remembered_again {call : Call σ α} {a : α}
    (told : (remembered key call (cache, s)).1 = .ok a) (again : Call σ α) :
    remembered key again (remembered key call (cache, s)).2 =
      (.ok a, (remembered key call (cache, s)).2) := by
  cases held : cache.lookup key with
  | some b =>
    obtain rfl : b = a := by simpa [remembered_known held] using told
    rw [remembered_known held, remembered_known held]
  | none =>
    rw [remembered_unknown held] at told ⊢
    have known : (kept key (call s).1 cache).lookup key = some a := by
      rw [lookup_kept held, if_pos rfl, told]
      rfl
    exact remembered_known known again

end Remembered

/-!
Clients of the end-users and organizations services. Where a service has no such resource the
answer is that nothing was found; every other failure makes the service unavailable. Nothing is
tried twice, and a cancelled request sends nothing.
-/

open Net

def callerHeader : String := "x-caller-id"

/-- A client of one service: the name it has in messages, its address, and the host's credential. -/
structure Client where
  name : String
  base : Url
  token : Option String
deriving Repr, DecidableEq

namespace Client

variable {ν α : Type}

def create (name base : String) (token : Option String) : Except Failure Client :=
  match Url.parse base with
  | .error f =>
    .error (.internal ("Invalid " ++ name ++ " URL '" ++ base ++ "': " ++ f.text))
  | .ok url =>
    if url.canBeBase then .ok ⟨name, url, token⟩
    else .error (.internal (name ++ " URL '" ++ base ++ "' cannot be a base"))

def endpoint (c : Client) (segments : List String) : Url := c.base.extend segments

def headersFor (c : Client) (caller : Caller) : List (String × String) :=
  (c.token.map fun t => ("authorization", "Bearer " ++ t)).toList ++
    (caller.id?.map fun id => (callerHeader, id)).toList

def readAnswer (c : Client) (format : Json.Format α) (url : Url) (status : Http.Status)
    (body : List UInt8) : Except Failure α :=
  if status = .notFound then
    .error (.notFound (c.name ++ " has no resource at " ++ String.ofList url.path))
  else if !status.isSuccess then
    .error (.serviceUnavailable (c.name ++ " returned " ++ status.text))
  else
    match format.readBytes body with
    | .ok a => .ok a
    | .error _ =>
      .error (.serviceUnavailable
        ("Invalid " ++ c.name ++ " response: error decoding response body"))

def getJson (network : Network ν) (c : Client) (format : Json.Format α) (caller : Caller)
    (segments : List String) (cancelled : Bool) : Call ν α := fun state =>
  if cancelled then (.error .cancelled, state)
  else
    let url := c.endpoint segments
    match network.send ⟨.get, .ok url, c.headersFor caller, ""⟩ state with
    | (.ok (status, body), state) => (c.readAnswer format url status body, state)
    | (.error f, state) =>
      (.error (.serviceUnavailable (c.name ++ " unavailable: " ++ f.text)), state)

def checkHealth (network : Network ν) (c : Client) : Call ν Unit := fun state =>
  match network.send ⟨.get, .ok (c.endpoint ["health"]), [], ""⟩ state with
  | (.ok (status, _), state) =>
    if status.isSuccess then (.ok (), state)
    else
      (.error (.serviceUnavailable (c.name ++ " health returned " ++ status.text)), state)
  | (.error f, state) => (.error (.serviceUnavailable (c.name ++ ": " ++ f.text)), state)

end Client

def endUsersName : String := "end-users"

def organizationsName : String := "organizations"

/-- Fetches the memberships of a user. They are asked for every time, so that a change takes effect
on the next request. -/
def fetchMemberships {ν : Type} (network : Network ν) (c : Client) (caller : Caller)
    (userId : String) (cancelled : Bool) : Call ν User :=
  c.getJson network User.format caller ["private", "users", userId, "memberships"] cancelled

def fetchSettings {ν : Type} (network : Network ν) (c : Client) (caller : Caller)
    (tenantId : String) (cancelled : Bool) : Call (Cache Settings × ν) Settings :=
  remembered tenantId
    (c.getJson network Settings.format caller ["private", "organizations", tenantId, "settings"]
      cancelled)

/-!
The client of the identity service, which turns tokens into verdicts. Every verdict is asked for
once. Without a service, which an empty address or `mock` says, every token stands for the caller
of that name.
-/

open Net Auth

structure Identity where
  base : String
  isMock : Bool
deriving Repr, DecidableEq

def standsForNone (address : String) : Bool := address.isEmpty || address == "mock"

namespace Identity

variable {ν : Type}

def create (address : String) : Identity :=
  ⟨String.ofList (address.toList.reverse.dropWhile (· == '/')).reverse, standsForNone address⟩

def trusting : Identity := ⟨"", true⟩

def readAnswer (status : Http.Status) (body : List UInt8) : Except Failure Introspection :=
  if !status.isSuccess then
    .error (.serviceUnavailable ("Identity service returned " ++ status.text))
  else
    match Introspection.format.readBytes body with
    | .ok verdict => .ok verdict
    | .error _ =>
      .error (.serviceUnavailable
        "Invalid introspection response: error decoding response body")

def ask (network : Network ν) (c : Identity) (token : String) : Call ν Introspection :=
  fun state =>
    let draft : Draft :=
      ⟨.post, Url.parse (c.base ++ "/tokens/introspect"), [("content-type", "application/json")],
        IntrospectionRequest.format.write ⟨token⟩⟩
    match network.send draft state with
    | (.ok (status, body), state) => (readAnswer status body, state)
    | (.error f, state) =>
      (.error (.serviceUnavailable ("Identity service unavailable: " ++ f.text)), state)

def introspect (network : Network ν) (c : Identity) (token : String) :
    Call (Cache Introspection × ν) Introspection :=
  remembered token (if c.isMock then .done (.ofSubject token) else c.ask network token)

end Identity

end TenantGate.Service
