import TenantGate.Startup.Launch

/-!
The program: it starts a host where it is run, logs what happens, and answers the requests that
come in on standard input, one a line as a method and a target, until the input ends.
-/
namespace TenantGate.Program

open Startup

def variableNames : List String :=
  ["LOG_JSON", "RUST_LOG", "TENANCY__HOST", "TENANCY__PORT", "TENANCY__AUTH_URL",
    "TENANCY__END_USERS_URL", "TENANCY__ORGANIZATIONS_URL", "TENANCY__SERVICE_TOKEN",
    "TENANCY__SETTINGS_CACHE_TTL_SECS", "TENANCY__REQUEST_TIMEOUT_SECS"]

def fileText? (name : String) : IO (Option String) := do
  try
    return some (← IO.FS.readFile name)
  catch _ =>
    return none

def surroundings : IO Surroundings := do
  let environment ← variableNames.filterMapM fun name => do
    return (← IO.getEnv name).map fun value => (name, value)
  return ⟨environment, ← fileText? ".env", ← fileText? configFileName⟩

def request? (line : String) : Option Http.Request :=
  match (Text.trim line).splitOn " " with
  | [method, target] => do
    let method ← Http.Method.ofName? method
    let uri ← Http.Uri.ofText? target
    return ⟨method, uri, [], []⟩
  | _ => none

def logLines (c : LogConfig) (lines : List LogLine) : IO Unit :=
  for line in lines.filter (LogFilter.ofText c.filter).admits do
    IO.println (if c.json then line.json else line.text)

partial def answerAll (input : IO.FS.Stream) (host : Running Unit)
    (site : Gate.Site (Service.World Unit)) : IO Unit := do
  let line ← input.getLine
  if line.isEmpty then return
  match request? line with
  | some request =>
    let (response, site) := host.serve Net.Network.offline request site
    IO.println (response.status.text ++ "\n" ++ response.body)
    answerAll input host site
  | none =>
    IO.println "no request"
    answerAll input host site

def finish (ending : Ending) : IO UInt32 := do
  match ending with
  | .failed headline causes =>
    IO.eprintln ("Error: " ++ headline)
    unless causes.isEmpty do
      IO.eprintln "\nCaused by:"
      for cause in causes do
        IO.eprintln ("    " ++ cause)
  | _ => pure ()
  return ending.exitCode.toUInt32

end TenantGate.Program

open TenantGate TenantGate.Startup TenantGate.Program in
def main : IO UInt32 := do
  let around ← surroundings
  let environment := around.fullEnvironment
  let logConfig := LogConfig.ofEnvironment environment
  match start Net.Network.offline Socket.fault? logConfig around.configFile environment
    ⟨(), .start⟩ with
  | (lines, .ok host, p) =>
    logLines logConfig lines
    answerAll (← IO.getStdin) host (Running.site p "")
    logLines logConfig (endingLines .terminate)
    finish .served
  | (lines, .error ending, _) =>
    logLines logConfig lines
    finish ending
