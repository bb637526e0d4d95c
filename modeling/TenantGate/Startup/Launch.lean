import TenantGate.Gate.Host
import TenantGate.Service.World
import TenantGate.Startup.Config
import TenantGate.Startup.Dotenv
import TenantGate.Startup.Logging
import TenantGate.Startup.Socket

/-!
The run of a host, from its start to the signal that ends it. The configuration comes first, then
the collaborators, the client of the identity service, the operations and the address to listen
on; what fails first ends the run. Every step logs what it does.
-/
namespace TenantGate.Startup

open Gate Service

structure Surroundings where
  environment : List (String × String)
  environmentFile : Option String
  configFile : Option String
deriving Repr

def Surroundings.fullEnvironment (s : Surroundings) : List (String × String) :=
  match s.environmentFile with
  | some file => Dotenv.load s.environment file
  | none => s.environment

def LogConfig.ofEnvironment (environment : List (String × String)) : LogConfig :=
  let json := match environment.lookup "LOG_JSON" with
    | some text => text == "1" || text.toLower == "true"
    | none => false
  let filter := (environment.lookup "RUST_LOG").getD defaultFilter
  (LogConfig.standard.withFilter filter).withJson json

/-- How a run ends: after serving, with a failure and its causes, or in the middle of a step. -/
inductive Ending where
  | served
  | failed (headline : String) (causes : List String)
  | aborted
deriving Repr, DecidableEq

def Ending.exitCode : Ending → UInt8
  | .served => 0
  | .failed _ _ => 1
  | .aborted => 101

/-- How far a start has come: the state of the network, and what is known of the collaborators. -/
structure Progress (ν : Type) where
  network : ν
  health : Telemetry.Health
deriving Repr

/-- A step of the start: the lines it logs, and its result or the end of the run. What it has found
out before the end stays known. -/
def Step (ν α : Type) : Type := Progress ν → List LogLine × Except Ending α × Progress ν

namespace Step

variable {ν α β : Type}

def done (a : α) : Step ν α := fun p => ([], .ok a, p)

def andThen (first : Step ν α) (second : α → Step ν β) : Step ν β := fun p =>
  match first p with
  | (lines, .ok a, p) =>
    let (more, result, p) := second a p
    (lines ++ more, result, p)
  | (lines, .error ending, p) => (lines, .error ending, p)

instance : Monad (Step ν) where
  pure := done
  bind := andThen

def logAll (lines : List LogLine) : Step ν Unit := fun p => (lines, .ok (), p)

def stop (ending : Ending) : Step ν α := fun p => ([], .error ending, p)

def orFail (headline : String) : Except Failure α → Step ν α
  | .ok a => done a
  | .error f => stop (.failed headline [f.text])

def ofCall (call : Call ν α) : Step ν (Except Failure α) := fun p =>
  let (result, network) := call p.network
  ([], .ok result, { p with network })

def note (c : Telemetry.Component) (health : Telemetry.ComponentHealth) : Step ν Unit := fun p =>
  ([], .ok (), { p with health := p.health.set c health })

theorem bind_of_ok {first : Step ν α} {p q : Progress ν} {lines : List LogLine} {a : α}
    (went : first p = (lines, .ok a, q)) (second : α → Step ν β) :
    (first >>= second) p = (lines ++ (second a q).1, (second a q).2) := by
  change first.andThen second p = _
  rw [andThen, went]

theorem bind_of_error {first : Step ν α} {p q : Progress ν} {lines : List LogLine}
    {ending : Ending} (went : first p = (lines, .error ending, q)) (second : α → Step ν β) :
    (first >>= second) p = (lines, .error ending, q) := by
  change first.andThen second p = _
  rw [andThen, went]

theorem bind_logAll (lines : List LogLine) (second : Unit → Step ν β) (p : Progress ν) :
    (logAll lines >>= second) p = (lines ++ (second () p).1, (second () p).2) :=
  bind_of_ok rfl second

end Step

def hostLine (level : LogLevel) (message : String) (fields : List (String × LogValue)) : LogLine :=
  ⟨level, "tenancy_host", message, fields⟩

def say {ν : Type} (level : LogLevel) (message : String)
    (fields : List (String × LogValue)) : Step ν Unit :=
  Step.logAll [hostLine level message fields]

def loggingLine (c : LogConfig) : LogLine :=
  ⟨.info, "telemetry::tracing_setup", "Tracing initialized",
    [("filter", .text c.filter), ("json", .flag c.json)]⟩

def version : String := "1.0.0"

/-- One of the two services that tenancy is resolved with: its name, and how it starts a line. -/
structure Peer where
  component : Telemetry.Component
  name : String
  title : String
deriving Repr, DecidableEq

namespace Peer

def endUsers : Peer := ⟨.endUsers, endUsersName, "End-users"⟩

def organizations : Peer := ⟨.organizations, organizationsName, "Organizations"⟩

end Peer

/-- The longest time that answers can be remembered for, in seconds: a thousand years. -/
def longestMemory : Nat := 1000 * 365 * 24 * 60 * 60

/-- Connects to a service, or to the directory where the address stands for none. A service that
is not well is noted and used all the same. Where answers are remembered for too long there is no
way on. -/
def connect {ν : Type} (network : Net.Network ν) (peer : Peer) (address : String)
    (token : Option String) (seconds : Nat) : Step ν Backing := do
  if standsForNone address then
    say .warn (peer.title ++ " service in mock mode") []
    Step.note peer.component .sound
    return .directory
  else
    let client ← Step.orFail ("Failed to create " ++ peer.name ++ " client")
      (Client.create peer.name address token)
    if longestMemory < seconds then Step.stop .aborted
    match ← Step.ofCall (client.checkHealth network) with
    | .ok () =>
      Step.note peer.component .sound
      say .info (peer.title ++ " service: healthy") []
    | .error f =>
      Step.note peer.component (.broken f.text)
      say .error (peer.title ++ " service: unhealthy") [("error", .text f.text)]
    return .client client

/-- The lines about operations: those left out of production, then the number of the others. -/
def operationLines {η : Type} (entries : List (Api.Entry η)) (registered : Nat) : List LogLine :=
  let line (level : LogLevel) (message : String) (field : String × LogValue) : LogLine :=
    ⟨level, "api::routes", message, [field]⟩
  let skipped := entries.filter fun e => e.contract.testingOnly
  (skipped.map fun e =>
    line .debug "Skipping testing-only operation" ("operation", .literal e.contract.operation)) ++
    [line .info "Registered operations" ("operations", .number registered)]

structure Prepared (ν : Type) where
  config : Config
  endUsers : Backing
  organizations : Backing
  identity : Identity
  registry : Api.Registry (Handler (World ν))

structure Running (ν : Type) extends Prepared ν where
  socket : Socket

/-- Connects to both services, to that of the end users first. Only settings are remembered. -/
def connectServices {ν : Type} (network : Net.Network ν) (config : Config) :
    Step ν (Backing × Backing) := do
  let endUsers ← connect network .endUsers config.endUsersUrl config.serviceToken 0
  let organizations ←
    connect network .organizations config.organizationsUrl config.serviceToken
      config.settingsSeconds
  return (endUsers, organizations)

def configLine (config : Config) : LogLine :=
  hostLine .info "Loaded configuration"
    [("auth_url", .text config.authUrl), ("end_users_url", .text config.endUsersUrl),
      ("organizations_url", .text config.organizationsUrl)]

def prepare {ν : Type} (network : Net.Network ν) (config : Config) : Step ν (Prepared ν) := do
  Step.logAll [configLine config]
  let (endUsers, organizations) ← connectServices network config
  let identity := Identity.create config.authUrl
  if identity.isMock then
    say .warn "Auth client in mock mode: every bearer token is trusted as its caller id" []
  let registry ← Step.orFail "Failed to register operations" (registeredOperations false)
  Step.logAll (operationLines (operations : List (Api.Entry (Handler (World ν))))
    registry.table.length)
  return ⟨config, endUsers, organizations, identity, registry⟩

/-- Binds the address of a host. What goes wrong there, if anything, is said by `bindFault`. -/
def listen {ν : Type} (bindFault : Socket → Option String) (prepared : Prepared ν) :
    Step ν (Running ν) :=
  match Socket.ofHost? prepared.config.host prepared.config.port with
  | none => Step.stop (.failed "Invalid server address" ["invalid socket address syntax"])
  | some socket => do
    say .info ("Listening on http://" ++ socket.text) []
    match bindFault socket with
    | some fault => Step.stop (.failed "Failed to bind to address" [fault])
    | none => return ⟨prepared, socket⟩

def start {ν : Type} (network : Net.Network ν) (bindFault : Socket → Option String)
    (logConfig : LogConfig) (configFile : Option String) (environment : List (String × String)) :
    Step ν (Running ν) := do
  Step.logAll [loggingLine logConfig]
  say .info ("Starting Tenancy Host v" ++ version) []
  match Config.load configFile environment with
  | .error fault => Step.stop (.failed fault.headline fault.causes)
  | .ok config => prepare network config >>= listen bindFault

namespace Running

variable {ν : Type}

def site (p : Progress ν) (now : String) : Site (World ν) :=
  ⟨.zero, p.health, now, .start p.network⟩

def serve (network : Net.Network ν) (r : Running ν) (request : Http.Request)
    (site : Site (World ν)) : Http.Response × Site (World ν) :=
  let services :=
    servicesOf network Identifier.isValid r.endUsers r.organizations r.identity
  Host.serve r.registry services .instant request site

end Running

inductive Signal where
  | terminate
  | interrupt
deriving Repr, DecidableEq

def endingLines (signal : Signal) : List LogLine :=
  let received := match signal with
    | .terminate => "Received terminate signal"
    | .interrupt => "Received Ctrl+C signal"
  [hostLine .info received [], hostLine .info "Shutdown complete" []]

/-- What a run shows: the lines that pass the filter, whether as JSON, and how it ends. -/
structure Report where
  json : Bool
  lines : List LogLine
  ending : Ending
deriving Repr, DecidableEq

def run {ν : Type} (network : Net.Network ν) (bindFault : Socket → Option String)
    (around : Surroundings) (signal : Signal) (state : ν) : Report :=
  let environment := around.fullEnvironment
  let logConfig := LogConfig.ofEnvironment environment
  let filter := LogFilter.ofText logConfig.filter
  match start network bindFault logConfig around.configFile environment ⟨state, .start⟩ with
  | (lines, .ok _, _) =>
    ⟨logConfig.json, (lines ++ endingLines signal).filter filter.admits, .served⟩
  | (lines, .error ending, _) => ⟨logConfig.json, lines.filter filter.admits, ending⟩

end TenantGate.Startup
