import TenantGate.Proofs.HealthHistory
import TenantGate.Proofs.SocketTexts
import TenantGate.Startup.Launch

/-!
How far a start gets. What a service answers to its probe is noted and changes nothing else; a start
ends before it binds an address only where an address cannot be used.
-/
namespace TenantGate.Startup

open Gate Service Telemetry

variable {ν : Type}

def IsMock (address : String) : Prop := address = "" ∨ address = "mock"

structure Names (address : String) (base : Net.Url) : Prop where
  parsed : Net.Url.parse address = .ok base
  canBeBase : base.canBeBase = true

def Usable (address : String) : Prop := IsMock address ∨ ∃ base, Names address base

def probe (network : Net.Network ν) (base : Net.Url) (state : ν) :
    Except Net.SendFault (Http.Status × List UInt8) × ν :=
  network.send ⟨.get, .ok (base.extend ["health"]), [], ""⟩ state

def Succeeds (status : Http.Status) : Prop := 200 ≤ status.code ∧ status.code ≤ 299

inductive Finds (network : Net.Network ν) (name address : String) (state : ν) :
    ComponentHealth → ν → Prop where
  | mock (isMock : IsMock address) : Finds network name address state ⟨true, none⟩ state
  | well {base : Net.Url} {status : Http.Status} {body : List UInt8} {left : ν}
      (names : Names address base)
      (answered : probe network base state = (.ok (status, body), left))
      (succeeds : Succeeds status) : Finds network name address state ⟨true, none⟩ left
  | ill {base : Net.Url} {status : Http.Status} {body : List UInt8} {left : ν}
      (names : Names address base)
      (answered : probe network base state = (.ok (status, body), left))
      (fails : ¬ Succeeds status) : Finds network name address state
        ⟨false, some ("service unavailable: " ++ (name ++ " health returned " ++ status.text))⟩ left
  | silent {base : Net.Url} {fault : Net.SendFault} {left : ν} (names : Names address base)
      (unanswered : probe network base state = (.error fault, left)) :
      Finds network name address state
        ⟨false, some ("service unavailable: " ++ (name ++ ": " ++ fault.text))⟩ left

/-- The address stands for no service, or the probe of the service is answered with success. -/
def Well (network : Net.Network ν) (address : String) (state : ν) : Prop :=
  IsMock address ∨ ∃ base status body, Names address base ∧
    (probe network base state).1 = .ok (status, body) ∧ Succeeds status

section Connecting

variable {network : Net.Network ν} {peer : Peer} {address : String}

theorem standsForNone_iff (address : String) : standsForNone address = true ↔ IsMock address := by
  rw [standsForNone, Bool.or_eq_true, String.isEmpty_iff, beq_iff_eq, IsMock]

theorem exists_names_iff (address : String) : (∃ base, Names address base) ↔
    (Net.Url.parse address).toOption.any Net.Url.canBeBase = true := by
  constructor
  · rintro ⟨base, names⟩
    rw [names.parsed]
    exact names.canBeBase
  · intro named
    cases parsed : Net.Url.parse address with
    | error fault =>
      rw [parsed] at named
      exact absurd named nofun
    | ok base =>
      rw [parsed] at named
      exact ⟨base, parsed, named⟩

instance (address : String) : Decidable (Usable address) :=
  decidable_of_iff (standsForNone address = true ∨
      (Net.Url.parse address).toOption.any Net.Url.canBeBase = true)
    (or_congr (standsForNone_iff address) (exists_names_iff address).symm)

theorem Names.not_mock {base : Net.Url} (names : Names address base) : ¬ IsMock address := by
  rintro (rfl | rfl)
  · exact absurd names.parsed nofun
  · exact absurd names.parsed nofun

theorem isSuccess_iff (status : Http.Status) : status.isSuccess = true ↔ Succeeds status := by
  rw [Http.Status.isSuccess, Bool.and_eq_true, decide_eq_true_eq, decide_eq_true_eq, Succeeds]

theorem create_of_names {base : Net.Url} (names : Names address base) (name : String)
    (token : Option String) : Client.create name address token = .ok ⟨name, base, token⟩ := by
  simp only [Client.create, names.parsed, names.canBeBase, if_true]

theorem create_of_unusable (unusable : ¬ Usable address) (name : String) (token : Option String) :
    ∃ f, Client.create name address token = .error f := by
  unfold Client.create
  split
  · exact ⟨_, rfl⟩
  · rename_i base parsed
    split
    · rename_i canBeBase
      exact absurd (.inr ⟨base, parsed, canBeBase⟩) unusable
    · exact ⟨_, rfl⟩

def noted : Except Failure Unit → ComponentHealth
  | .ok () => .sound
  | .error f => .broken f.text

theorem finds_noted {base : Net.Url} (names : Names address base) (name : String)
    (token : Option String) (state : ν) :
    Finds network name address state
      (noted (Client.checkHealth network ⟨name, base, token⟩ state).1)
      (Client.checkHealth network ⟨name, base, token⟩ state).2 := by
  unfold Client.checkHealth
  split
  · rename_i status body left answered
    by_cases success : status.isSuccess = true
    · rw [if_pos success]
      exact .well names answered ((isSuccess_iff status).mp success)
    · rw [if_neg success]
      exact .ill names answered (mt (isSuccess_iff status).mpr success)
  · rename_i fault left unanswered
    exact .silent names unanswered

theorem connect_mock (isMock : IsMock address) (network : Net.Network ν) (peer : Peer)
    (token : Option String) (seconds : Nat) (p : Progress ν) :
    ∃ lines, connect network peer address token seconds p =
      (lines, .ok .directory, ⟨p.network, p.health.set peer.component ⟨true, none⟩⟩) := by
  rw [connect, if_pos ((standsForNone_iff address).mpr isMock)]
  exact ⟨_, rfl⟩

theorem connect_service {base : Net.Url} (names : Names address base) (network : Net.Network ν)
    (peer : Peer) (token : Option String) {seconds : Nat} (kept : seconds ≤ longestMemory)
    (p : Progress ν) :
    ∃ lines, connect network peer address token seconds p =
      (lines, .ok (.client ⟨peer.name, base, token⟩),
        ⟨(Client.checkHealth network ⟨peer.name, base, token⟩ p.network).2,
          p.health.set peer.component
            (noted (Client.checkHealth network ⟨peer.name, base, token⟩ p.network).1)⟩) := by
  rw [connect, if_neg (mt (standsForNone_iff address).mp names.not_mock),
    create_of_names names peer.name token]
  simp only [if_neg (Nat.not_lt.mpr kept)]
  cases called : Client.checkHealth network ⟨peer.name, base, token⟩ p.network with
  | mk result left =>
    have asked : Step.ofCall (Client.checkHealth network ⟨peer.name, base, token⟩) p =
        ([], .ok result, { p with network := left }) := by
      rw [Step.ofCall, called]
    rw [Step.orFail, Step.bind_of_ok rfl, Step.bind_of_ok asked]
    cases result with
    | ok _ => exact ⟨_, rfl⟩
    | error f => exact ⟨_, rfl⟩

theorem connect_usable (usable : Usable address) (network : Net.Network ν) (peer : Peer)
    (token : Option String) {seconds : Nat} (kept : seconds ≤ longestMemory) (p : Progress ν) :
    ∃ lines backing health left, Finds network peer.name address p.network health left ∧
      connect network peer address token seconds p =
        (lines, .ok backing, ⟨left, p.health.set peer.component health⟩) := by
  rcases usable with isMock | ⟨base, names⟩
  · obtain ⟨lines, went⟩ := connect_mock isMock network peer token seconds p
    exact ⟨lines, _, _, _, .mock isMock, went⟩
  · obtain ⟨lines, went⟩ := connect_service names network peer token kept p
    exact ⟨lines, _, _, _, finds_noted names peer.name token p.network, went⟩

theorem connect_unusable (unusable : ¬ Usable address) (network : Net.Network ν) (peer : Peer)
    (token : Option String) (seconds : Nat) (p : Progress ν) :
    ∃ ending, connect network peer address token seconds p = ([], .error ending, p) := by
  obtain ⟨f, refused⟩ := create_of_unusable unusable peer.name token
  rw [connect, if_neg fun none => unusable (.inl ((standsForNone_iff address).mp none)), refused]
  exact ⟨_, rfl⟩

theorem Names.unique {base base' : Net.Url} (names : Names address base)
    (names' : Names address base') : base = base' :=
  Except.ok.inj (names.parsed.symm.trans names'.parsed)

theorem well_iff_of_answer {base : Net.Url} {state left : ν}
    {result : Except Net.SendFault (Http.Status × List UInt8)} (names : Names address base)
    (answered : probe network base state = (result, left)) :
    Well network address state ↔ ∃ status body, result = .ok (status, body) ∧ Succeeds status := by
  constructor
  · rintro (isMock | ⟨base', status, body, names', success, succeeds⟩)
    · exact absurd isMock names.not_mock
    · rw [names'.unique names, answered] at success
      exact ⟨status, body, success, succeeds⟩
  · rintro ⟨status, body, rfl, succeeds⟩
    exact .inr ⟨base, status, body, names, congrArg Prod.fst answered, succeeds⟩

theorem Finds.healthy_iff {name : String} {state left : ν} {health : ComponentHealth}
    (finds : Finds network name address state health left) :
    health.healthy = true ↔ Well network address state := by
  cases finds with
  | mock isMock => exact ⟨fun _ => .inl isMock, fun _ => rfl⟩
  | well names answered succeeds =>
    rw [well_iff_of_answer names answered]
    exact ⟨fun _ => ⟨_, _, rfl, succeeds⟩, fun _ => rfl⟩
  | ill names answered fails =>
    rw [well_iff_of_answer names answered]
    refine ⟨nofun, ?_⟩
    rintro ⟨_, _, ⟨⟩, succeeds⟩
    exact absurd succeeds fails
  | silent names unanswered =>
    rw [well_iff_of_answer names unanswered]
    exact ⟨nofun, nofun⟩

end Connecting

section Preparing

variable {network : Net.Network ν} {config : Config} {p q : Progress ν}

/-- What a start has found out about both services when it goes on. The one of the end users is asked
first. -/
structure Asked (network : Net.Network ν) (config : Config) (p : Progress ν) (between : ν)
    (q : Progress ν) : Prop where
  endUsers : Finds network "end-users" config.endUsersUrl p.network
    (q.health.component .endUsers) between
  organizations : Finds network "organizations" config.organizationsUrl between
    (q.health.component .organizations) q.network

theorem connectServices_usable (network : Net.Network ν) (endUsers : Usable config.endUsersUrl)
    (organizations : Usable config.organizationsUrl) (kept : config.settingsSeconds ≤ longestMemory)
    (p : Progress ν) :
    ∃ lines backings between q, connectServices network config p = (lines, .ok backings, q) ∧
      Asked network config p between q := by
  obtain ⟨lines, first, health, between, found, went⟩ :=
    connect_usable endUsers network .endUsers config.serviceToken (Nat.zero_le _) p
  obtain ⟨more, second, health', left, found', went'⟩ :=
    connect_usable organizations network .organizations config.serviceToken kept
      ⟨between, p.health.set Peer.endUsers.component health⟩
  have both : connectServices network config p = (lines ++ (more ++ []), .ok (first, second),
      ⟨left, (p.health.set .endUsers health).set .organizations health'⟩) := by
    rw [connectServices, Step.bind_of_ok went, Step.bind_of_ok went']
    rfl
  exact ⟨_, _, _, _, both, ⟨found, found'⟩⟩

theorem connectServices_unusable (network : Net.Network ν)
    (endUsers : ¬ Usable config.endUsersUrl) (p : Progress ν) :
    ∃ ending, connectServices network config p = ([], .error ending, p) := by
  obtain ⟨ending, refused⟩ :=
    connect_unusable endUsers network .endUsers config.serviceToken 0 p
  exact ⟨ending, by rw [connectServices, Step.bind_of_error refused]⟩

/-- Where the second address is refused, what is found out about the first service stays known. -/
structure AskedFirst (network : Net.Network ν) (config : Config) (p q : Progress ν) : Prop where
  endUsers : Finds network "end-users" config.endUsersUrl p.network
    (q.health.component .endUsers) q.network
  organizations : q.health.component .organizations = p.health.component .organizations

theorem connectServices_halfway (network : Net.Network ν) (endUsers : Usable config.endUsersUrl)
    (organizations : ¬ Usable config.organizationsUrl) (p : Progress ν) :
    ∃ lines ending q, connectServices network config p = (lines, .error ending, q) ∧
      AskedFirst network config p q := by
  obtain ⟨lines, first, health, between, found, went⟩ :=
    connect_usable endUsers network .endUsers config.serviceToken (Nat.zero_le _) p
  obtain ⟨ending, refused⟩ :=
    connect_unusable organizations network .organizations config.serviceToken
      config.settingsSeconds ⟨between, p.health.set Peer.endUsers.component health⟩
  have one : connectServices network config p =
      (lines ++ [], .error ending, ⟨between, p.health.set .endUsers health⟩) := by
    rw [connectServices, Step.bind_of_ok went, Step.bind_of_error refused]
    rfl
  exact ⟨_, _, _, one, ⟨found, rfl⟩⟩

theorem operations_registered (ν : Type) : ∃ registry : Api.Registry (Handler (World ν)),
    registeredOperations false = .ok registry := ⟨_, rfl⟩

theorem prepare_of_connected {lines : List LogLine} {backings : Backing × Backing}
    (connected : connectServices network config p = (lines, .ok backings, q)) :
    ∃ more prepared, prepare network config p = (more, .ok prepared, q) ∧
      prepared.config = config ∧ registeredOperations false = .ok prepared.registry := by
  obtain ⟨registry, registered⟩ := operations_registered ν
  rw [prepare, Step.bind_logAll, Step.bind_of_ok connected, registered]
  -- a stand-in for the identity service is only said in one more line
  by_cases isMock : (Identity.create config.authUrl).isMock = true
  · simp only [if_pos isMock]
    exact ⟨_, ⟨config, backings.1, backings.2, _, registry⟩, rfl, rfl, rfl⟩
  · simp only [if_neg isMock]
    exact ⟨_, ⟨config, backings.1, backings.2, _, registry⟩, rfl, rfl, rfl⟩

theorem prepare_of_refused {lines : List LogLine} {ending : Ending}
    (refused : connectServices network config p = (lines, .error ending, q)) :
    ∃ more, prepare network config p = (more, .error ending, q) := by
  rw [prepare, Step.bind_logAll, Step.bind_of_error refused]
  exact ⟨_, rfl⟩

end Preparing

section Binding

variable {network : Net.Network ν} {config : Config}

theorem listen_socket {prepared : Prepared ν} {socket : Socket}
    (read : Socket.ofHost? prepared.config.host prepared.config.port = some socket)
    (bindFault : Socket → Option String) (p : Progress ν) :
    listen bindFault prepared p =
      ([hostLine .info ("Listening on http://" ++ socket.text) []],
        match bindFault socket with
        | none => .ok ⟨prepared, socket⟩
        | some fault => .error (.failed "Failed to bind to address" [fault]),
        p) := by
  rw [listen, read]
  simp only [say, Step.bind_logAll]
  cases bindFault socket with
  | none => rfl
  | some fault => rfl

theorem listen_invalid {prepared : Prepared ν}
    (unread : Socket.ofHost? prepared.config.host prepared.config.port = none)
    (bindFault : Socket → Option String) (p : Progress ν) :
    listen bindFault prepared p =
      ([], .error (.failed "Invalid server address" ["invalid socket address syntax"]), p) := by
  rw [listen, unread]
  rfl

abbrev Attempt (ν : Type) : Type :=
  (Socket → Option String) → List LogLine × Except Ending (Running ν) × Progress ν

/-- The attempt gets as far as binding an address, and only what stands in the way there ends it. -/
def Binds (attempt : Attempt ν) (running : Running ν) (left : Progress ν) : Prop :=
  ∃ lines, ∀ bindFault, attempt bindFault =
    (lines, match bindFault running.socket with
      | none => .ok running
      | some fault => .error (.failed "Failed to bind to address" [fault]), left)

/-- The attempt ends before any address is bound. -/
def EndsUnbound (attempt : Attempt ν) (left : Progress ν) : Prop :=
  ∃ lines ending, ∀ bindFault, attempt bindFault = (lines, .error ending, left)

theorem Binds.unique {attempt : Attempt ν} {running running' : Running ν} {left left' : Progress ν}
    (binds : Binds attempt running left) (binds' : Binds attempt running' left') :
    running = running' ∧ left = left' := by
  obtain ⟨lines, went⟩ := binds
  obtain ⟨lines', went'⟩ := binds'
  have same := (went fun _ => none).symm.trans (went' fun _ => none)
  simp only [Prod.mk.injEq, Except.ok.injEq] at same
  exact same.2

theorem EndsUnbound.not_binds {attempt : Attempt ν} {running : Running ν} {left left' : Progress ν}
    (ends : EndsUnbound attempt left) : ¬ Binds attempt running left' := by
  obtain ⟨lines, ending, went⟩ := ends
  rintro ⟨lines', went'⟩
  have same := (went fun _ => none).symm.trans (went' fun _ => none)
  simp only [Prod.mk.injEq, reduceCtorEq, false_and, and_false] at same

end Binding

/-- The addresses of a configuration can be used: those of both services and its own. -/
structure Able (config : Config) : Prop where
  endUsers : Usable config.endUsersUrl
  organizations : Usable config.organizationsUrl
  socket : IsSocket (config.host ++ ":" ++ toString config.port.toNat)

section Starting

variable {network : Net.Network ν} {logConfig : LogConfig} {configFile : Option String}
  {environment : List (String × String)} {config : Config} {p : Progress ν}

def Attempt.ofStart (network : Net.Network ν) (logConfig : LogConfig) (configFile : Option String)
    (environment : List (String × String)) (p : Progress ν) : Attempt ν :=
  fun bindFault => start network bindFault logConfig configFile environment p

theorem start_loaded (network : Net.Network ν) (logConfig : LogConfig) (p : Progress ν)
    (loaded : Config.load configFile environment = .ok config) :
    ∃ lines, ∀ bindFault,
      Attempt.ofStart network logConfig configFile environment p bindFault =
        (lines ++ ((prepare network config >>= listen bindFault) p).1,
          ((prepare network config >>= listen bindFault) p).2) := by
  refine ⟨[loggingLine logConfig] ++ [hostLine .info ("Starting Tenancy Host v" ++ version) []],
    fun bindFault => ?_⟩
  rw [Attempt.ofStart, start, Step.bind_logAll, say, Step.bind_logAll, loaded, List.append_assoc]

theorem start_prepared (logConfig : LogConfig)
    (loaded : Config.load configFile environment = .ok config)
    {lines : List LogLine} {prepared : Prepared ν} {q : Progress ν}
    (went : prepare network config p = (lines, .ok prepared, q)) :
    ∃ front, ∀ bindFault, Attempt.ofStart network logConfig configFile environment p bindFault =
      (front ++ (listen bindFault prepared q).1, (listen bindFault prepared q).2) := by
  obtain ⟨front, started⟩ := start_loaded network logConfig p loaded
  refine ⟨front ++ lines, fun bindFault => ?_⟩
  rw [started, Step.bind_of_ok went, List.append_assoc]

theorem start_unprepared (loaded : Config.load configFile environment = .ok config)
    {lines : List LogLine} {ending : Ending} {left : Progress ν}
    (went : prepare network config p = (lines, .error ending, left)) :
    EndsUnbound (Attempt.ofStart network logConfig configFile environment p) left := by
  obtain ⟨front, started⟩ := start_loaded network logConfig p loaded
  refine ⟨front ++ lines, ending, fun bindFault => ?_⟩
  rw [started, Step.bind_of_error went]

theorem start_binds (loaded : Config.load configFile environment = .ok config)
    (kept : config.settingsSeconds ≤ longestMemory) (able : Able config) :
    ∃ running between left,
      Binds (Attempt.ofStart network logConfig configFile environment p) running left ∧
        Socket.ofHost? config.host config.port = some running.socket ∧
        registeredOperations false = .ok running.registry ∧
        Asked network config p between left := by
  obtain ⟨lines, backings, between, left, connected, asked⟩ :=
    connectServices_usable network able.endUsers able.organizations kept p
  obtain ⟨more, prepared, went, rfl, registered⟩ := prepare_of_connected connected
  obtain ⟨front, started⟩ := start_prepared logConfig loaded went
  obtain ⟨socket, read⟩ := Option.isSome_iff_exists.mp ((isSocket_iff _ _).mp able.socket)
  have binds : Binds (Attempt.ofStart network logConfig configFile environment p)
      ⟨prepared, socket⟩ left :=
    ⟨front ++ [hostLine .info ("Listening on http://" ++ socket.text) []], fun bindFault => by
      rw [started, listen_socket read]⟩
  exact ⟨_, between, left, binds, read, registered, asked⟩

theorem start_unbound (network : Net.Network ν)
    (loaded : Config.load configFile environment = .ok config)
    (kept : config.settingsSeconds ≤ longestMemory) (unable : ¬ Able config) :
    ∃ left, EndsUnbound (Attempt.ofStart network logConfig configFile environment p) left := by
  by_cases endUsers : Usable config.endUsersUrl
  · by_cases organizations : Usable config.organizationsUrl
    · have unread : Socket.ofHost? config.host config.port = none := by
        rw [← Option.not_isSome_iff_eq_none, ← isSocket_iff]
        exact fun isSocket => unable ⟨endUsers, organizations, isSocket⟩
      obtain ⟨lines, backings, between, left, connected, _⟩ :=
        connectServices_usable network endUsers organizations kept p
      obtain ⟨more, prepared, went, rfl, _⟩ := prepare_of_connected connected
      obtain ⟨front, started⟩ := start_prepared logConfig loaded went
      refine ⟨left, front ++ [],
        .failed "Invalid server address" ["invalid socket address syntax"], fun bindFault => ?_⟩
      rw [started, listen_invalid unread]
    · obtain ⟨lines, ending, left, refused, _⟩ :=
        connectServices_halfway network endUsers organizations p
      obtain ⟨more, went⟩ := prepare_of_refused refused
      exact ⟨left, start_unprepared loaded went⟩
  · obtain ⟨ending, refused⟩ := connectServices_unusable network endUsers p
    obtain ⟨more, went⟩ := prepare_of_refused refused
    exact ⟨p, start_unprepared loaded went⟩

theorem able_of_binds (loaded : Config.load configFile environment = .ok config)
    (kept : config.settingsSeconds ≤ longestMemory) {running : Running ν} {left : Progress ν}
    (binds : Binds (Attempt.ofStart network logConfig configFile environment p) running left) :
    Able config := by
  by_contra unable
  obtain ⟨left', ends⟩ := start_unbound network loaded kept unable
  exact ends.not_binds binds

theorem ready_iff {running : Running ν} {between : ν} {left : Progress ν}
    (registered : registeredOperations false = .ok running.registry)
    (asked : Asked network config p between left) {request : Http.Request}
    {site : Site (World ν)} (known : site.health = left.health) (asks : request.method = .get)
    (path : request.uri.path = Utf8.encode "/health/ready") :
    (running.serve network request site).1.status.code = 200 ↔
      Well network config.endUsersUrl p.network ∧ Well network config.organizationsUrl between := by
  have status := Host.ready_status registered asks path
    (servicesOf network Identifier.isValid running.endUsers running.organizations running.identity)
    .instant site
  rw [Running.serve, status, known, ← asked.endUsers.healthy_iff, ← asked.organizations.healthy_iff,
    ← Bool.and_eq_true]
  change _ ↔ left.health.isReady = true
  cases left.health.isReady <;> decide

/-- What comes of a start with a configuration: only unusable addresses keep it from listening, and
what the services answer is told by the probe of the host. -/
structure Tolerant (network : Net.Network ν) (config : Config) (p : Progress ν)
    (attempt : Attempt ν) : Prop where
  reaches : (∃ running left, Binds attempt running left) ↔ Able config
  decided : (∃ running left, Binds attempt running left) ∨ ∃ left, EndsUnbound attempt left
  bound : ∀ running left, Binds attempt running left →
    Socket.ofHost? config.host config.port = some running.socket
  found : ∀ running left, Binds attempt running left →
    ∃ between, Asked network config p between left ∧
      ∀ request (site : Site (World ν)), site.health = left.health → request.method = .get →
        request.uri.path = Utf8.encode "/health/ready" →
          ((running.serve network request site).1.status.code = 200 ↔
            Well network config.endUsersUrl p.network ∧
              Well network config.organizationsUrl between)
  refused : Usable config.endUsersUrl → ¬ Usable config.organizationsUrl →
    ∃ left, EndsUnbound attempt left ∧ AskedFirst network config p left

/-- Whatever the services answer, a start ends before it listens only where an address is
unusable. -/
theorem start_tolerates_ill_services (network : Net.Network ν) (logConfig : LogConfig)
    (p : Progress ν) (loaded : Config.load configFile environment = .ok config)
    (kept : config.settingsSeconds ≤ longestMemory) :
    Tolerant network config p (Attempt.ofStart network logConfig configFile environment p) where
  reaches := by
    constructor
    · rintro ⟨running, left, binds⟩
      exact able_of_binds loaded kept binds
    · intro able
      obtain ⟨running, _, left, binds, _⟩ := start_binds loaded kept able
      exact ⟨running, left, binds⟩
  decided := by
    by_cases able : Able config
    · obtain ⟨running, _, left, binds, _⟩ := start_binds loaded kept able
      exact .inl ⟨running, left, binds⟩
    · exact .inr (start_unbound network loaded kept able)
  bound running left binds := by
    obtain ⟨running', between, left', binds', read, _⟩ :=
      start_binds loaded kept (able_of_binds loaded kept binds)
    obtain ⟨rfl, rfl⟩ := binds.unique binds'
    exact read
  found running left binds := by
    obtain ⟨running', between, left', binds', _, registered, asked⟩ :=
      start_binds loaded kept (able_of_binds loaded kept binds)
    obtain ⟨rfl, rfl⟩ := binds.unique binds'
    exact ⟨between, asked, fun request site known asks path =>
      ready_iff registered asked known asks path⟩
  refused endUsers organizations := by
    obtain ⟨lines, ending, left, refused, asked⟩ :=
      connectServices_halfway network endUsers organizations p
    obtain ⟨more, went⟩ := prepare_of_refused refused
    exact ⟨left, start_unprepared loaded went, asked⟩

/-- Where no service answers, a host listens all the same. A mailbox is no address of a service, and
ends the start behind what was found out about the end users. -/
theorem unreached_services_are_no_obstacle :
    (Config.load none [] = .ok .standard ∧ Config.standard.settingsSeconds ≤ longestMemory ∧
      ∃ running left,
        Binds (Attempt.ofStart .offline .standard none [] ⟨(), .start⟩) running left) ∧
    (Config.load none
        [("TENANCY__END_USERS_URL", "mock"), ("TENANCY__ORGANIZATIONS_URL", "mailto:a")] =
        .ok { Config.standard with endUsersUrl := "mock", organizationsUrl := "mailto:a" } ∧
      ∃ left, EndsUnbound (Attempt.ofStart .offline .standard none
          [("TENANCY__END_USERS_URL", "mock"), ("TENANCY__ORGANIZATIONS_URL", "mailto:a")]
          ⟨(), .start⟩) left ∧
        AskedFirst .offline
          { Config.standard with endUsersUrl := "mock", organizationsUrl := "mailto:a" }
          ⟨(), .start⟩ left) := by
  have standard : Config.load none [] = .ok .standard := by decide +kernel
  have mailbox : Config.load none
      [("TENANCY__END_USERS_URL", "mock"), ("TENANCY__ORGANIZATIONS_URL", "mailto:a")] =
        .ok { Config.standard with endUsersUrl := "mock", organizationsUrl := "mailto:a" } := by
    decide +kernel
  have able : Able .standard := by
    refine ⟨?_, ?_, (isSocket_iff _ _).mpr ?_⟩ <;> decide +kernel
  exact ⟨⟨standard, by decide,
      (start_tolerates_ill_services .offline .standard ⟨(), .start⟩ standard
        (by decide)).reaches.mpr able⟩,
    mailbox,
      (start_tolerates_ill_services .offline .standard ⟨(), .start⟩ mailbox
        (by decide)).refused (by decide +kernel) (by decide +kernel)⟩

end Starting

end TenantGate.Startup
