import TenantGate.Startup.Toml
import TenantGate.Startup.Value

/-!
The configuration of the host. Where nothing is said a field has its standard value; the file says
more than that, and the environment more than the file.
-/
namespace TenantGate.Startup

structure Config where
  host : String
  port : UInt16
  authUrl : String
  endUsersUrl : String
  organizationsUrl : String
  serviceToken : Option String
  settingsSeconds : Nat
  timeoutSeconds : Nat
deriving Repr, DecidableEq

inductive ConfigFault where
  | unreadable
  | misfit (key : String) (m : Mismatch)
deriving Repr, DecidableEq

namespace ConfigFault

def headline : ConfigFault → String
  | .unreadable => "Failed to build configuration"
  | .misfit _ _ => "Failed to deserialize configuration"

def causes : ConfigFault → List String
  | .unreadable => []
  | .misfit key m => [m.message key]

end ConfigFault

abbrev Said := List (String × Sourced)

inductive Part where
  | whole
  | member
  | item
deriving Repr, DecidableEq

namespace Part

def isKeyChar (c : Char) : Bool := c.isAlphanum || c == ' ' || c == '_' || c == '-'

/-- Steps further down behind the first one: members behind points and items in brackets. -/
def isTrail : Nat → List Char → Bool
  | 0, _ => false
  | _ + 1, [] => true
  | fuel + 1, '.' :: cs =>
    let key := cs.takeWhile isKeyChar
    !key.isEmpty && isTrail fuel (cs.drop key.length)
  | fuel + 1, '[' :: cs =>
    let inner := cs.takeWhile (· != ']')
    (Decimal.int64? (String.ofList inner)).isSome && cs.length != inner.length &&
      isTrail fuel (cs.drop (inner.length + 1))
  | _ + 1, _ => false

/-- The key that a text starts with, and the part of its value that the rest of the text means. -/
def ofText? (text : String) : Option (String × Part) :=
  let cs := text.toList
  let key := cs.takeWhile isKeyChar
  let trail := cs.drop key.length
  if key.isEmpty || !isTrail (trail.length + 1) trail then none
  else
    some (String.ofList key,
      match trail.head? with
      | none => .whole
      | some '.' => .member
      | some _ => .item)

end Part

namespace Said

def replace (key : String) (v : Sourced) : Said → Said
  | [] => [(key, v)]
  | (other, old) :: more =>
    if other == key then (key, v) :: more else (other, old) :: replace key v more

/-- Adds a value. What is said about a part makes a table or a list of the whole; tables are put
together, so an empty one changes nothing. A text that names no key changes nothing either. -/
def add (said : Said) (text : String) (v : Sourced) : Said :=
  match Part.ofText? text, v.value with
  | some (_, .whole), .table true => said
  | some (key, .whole), .table false => replace key ⟨.table false, none⟩ said
  | some (key, .whole), _ => replace key v said
  | some (key, .member), _ => replace key ⟨.table false, none⟩ said
  | some (key, .item), _ =>
    match said.lookup key with
    | some ⟨.list, _⟩ => said
    | _ => replace key ⟨.list, none⟩ said
  | none, _ => said

end Said

/-- A key in small letters. Beyond ASCII only the sign of the kelvin has a small letter that keys are
made of. -/
def smallLetters (s : String) : String := s.map fun c => if c = '\u212A' then 'k' else c.toLower

def configFileName : String := "config/default.toml"

/-- Adds what the file says; its keys are the same in small and capital letters. -/
def Said.addFile (said : Said) (file : String) : Except ConfigFault Said :=
  match Toml.parse? file with
  | none => .error .unreadable
  | some entries =>
    .ok (entries.foldl
      (fun said (key, v) => said.add (smallLetters key) ⟨v, some configFileName⟩) said)

/-- The value that a variable's text stands for: a boolean, a number or just the text. -/
def variableValue (text : String) : Value :=
  if text.toLower == "true" then .boolean true
  else if text.toLower == "false" then .boolean false
  else
    match Decimal.int64? text with
    | some i => .integer i
    | none =>
      match Decimal.float? text with
      | some x => .float x
      | none => .text text

def pointed : List Char → List Char
  | '_' :: '_' :: cs => '.' :: pointed cs
  | c :: cs => c :: pointed cs
  | [] => []

def variableMark : List Char := "tenancy__".toList

def variableKey? (name : String) : Option String :=
  let cs := (smallLetters name).toList
  if variableMark.isPrefixOf cs then
    some (String.ofList (pointed (cs.drop variableMark.length)))
  else none

def Said.addVariable (said : Said) (entry : String × String) : Said :=
  match variableKey? entry.1 with
  | some key => said.add key ⟨variableValue entry.2, some "the environment"⟩
  | none => said

namespace Config

def standard : Config where
  host := "0.0.0.0"
  port := 8080
  authUrl := "http://identity:8080"
  endUsersUrl := "http://end-users:8080"
  organizationsUrl := "http://organizations:8080"
  serviceToken := none
  settingsSeconds := 60
  timeoutSeconds := 5

def field {α : Type} (said : Said) (key : String) (read : Sourced → Except Mismatch α)
    (otherwise : α) : Except ConfigFault α :=
  match said.lookup key with
  | none => .ok otherwise
  | some v =>
    match read v with
    | .ok a => .ok a
    | .error m => .error (.misfit key m)

/-- The configuration that something was said about; the first field that does not fit ends it. -/
def ofSaid (said : Said) : Except ConfigFault Config := do
  let host ← field said "host" Sourced.text standard.host
  let port ← field said "port" Sourced.natural16 standard.port
  let authUrl ← field said "auth_url" Sourced.text standard.authUrl
  let endUsersUrl ← field said "end_users_url" Sourced.text standard.endUsersUrl
  let organizationsUrl ← field said "organizations_url" Sourced.text standard.organizationsUrl
  let serviceToken ←
    field said "service_token" (fun v => v.text.map some) standard.serviceToken
  let settingsSeconds ←
    field said "settings_cache_ttl_secs" Sourced.natural standard.settingsSeconds
  let timeoutSeconds ←
    field said "request_timeout_secs" Sourced.natural standard.timeoutSeconds
  return ⟨host, port, authUrl, endUsersUrl, organizationsUrl, serviceToken, settingsSeconds,
    timeoutSeconds⟩

def load (file : Option String) (environment : List (String × String)) :
    Except ConfigFault Config := do
  let said ← match file with
    | some text => Said.addFile [] text
    | none => .ok []
  ofSaid (environment.foldl Said.addVariable said)

end Config

end TenantGate.Startup
