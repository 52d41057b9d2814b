import SkyDaemon.Foundation.Beside
import SkyDaemon.Agent.Messages
import SkyDaemon.Runtime.OpenPorts

/-! The start of the daemon: the environment is read once, with a fallback for everything but the
node's token, and what the node then announces is what its dispatcher was built with. -/
namespace SkyDaemon

/-- `std::env::var`: nothing for a variable that is not set or is not Unicode. -/
abbrev Environment := String → Option String

def envOr (env : Environment) (key fallback : String) : String := (env key).getD fallback

/-- The pieces between commas without the white space around them. -/
def envList (env : Environment) (key fallback : String) : List String :=
  ((((envOr env key fallback).toList.splitOn ',').map Text.trim).filter (· ≠ [])).map String.ofList

def envDurationSecs (env : Environment) (key : String) (fallback : Nat) : Nat :=
  ((env key).bind fun value => Text.parseUnsigned 10 (2 ^ 64) value.toList).getD fallback

def envU16 (env : Environment) (key : String) (fallback : Nat) : Nat := ((env key).bind Runtime.parsePort).getD fallback

theorem Runtime.parsePort_lt {text : String} {port : Nat} (parsed : Runtime.parsePort text = some port) :
    port < 2 ^ 16 := by
  unfold Runtime.parsePort Text.parseUnsigned at parsed
  dsimp only at parsed
  -- with or without a sign, the digits are checked against the limit
  split at parsed
  all_goals
    split at parsed
    · cases parsed
    · split at parsed
      · cases parsed
      · exact of_decide_eq_true (Option.filter_eq_some_iff.mp parsed).2

/-- `to_ascii_lowercase` after `trim`. -/
def Runtime.FirewallMode.fromEnvStr (s : String) : Runtime.FirewallMode :=
  let word := String.ofList ((Text.trim s.toList).map Char.toLower)
  if word ∈ ["off", "disabled", "false", "0", "none"] then .off
  else if word = "sudo" then .sudo
  else .auto

namespace Agent
open Protocol Program

structure DatabaseConfig where
  adminHost : String
  adminPort : Nat
  adminUser : String
  adminPassword : String
  publicHost : String
  publicPort : Nat

/-- There is one only if an admin user is set. -/
def DatabaseConfig.fromEnv (env : Environment) : Option DatabaseConfig :=
  let adminUser := envOr env "SKY_DB_ADMIN_USER" ""
  if adminUser = "" then none
  else
    let adminHost := envOr env "SKY_DB_ADMIN_HOST" "127.0.0.1"
    let publicHost := envOr env "SKY_DB_PUBLIC_HOST" ""
    let adminPort := envU16 env "SKY_DB_ADMIN_PORT" 3306
    some {
      adminHost
      adminPort
      adminUser
      adminPassword := envOr env "SKY_DB_ADMIN_PASSWORD" ""
      publicHost := if publicHost = "" then adminHost else publicHost
      publicPort := envU16 env "SKY_DB_PUBLIC_PORT" adminPort }

structure Config where
  panelWsUrl : String
  nodeToken : String
  dockerSocket : String
  heartbeatInterval : Nat
  volumesRoot : String
  backupsRoot : String
  containerDns : List String
  manageFirewall : Runtime.FirewallMode
  database : Option DatabaseConfig

def Config.fromEnv (env : Environment) : Config where
  panelWsUrl := envOr env "SKY_PANEL_WS_URL" "ws://127.0.0.1:8080/agent/ws"
  nodeToken := envOr env "SKY_NODE_TOKEN" ""
  dockerSocket := envOr env "SKY_DOCKER_SOCKET" "/var/run/docker.sock"
  heartbeatInterval := envDurationSecs env "SKY_HEARTBEAT_INTERVAL" 5
  volumesRoot := envOr env "SKY_VOLUMES_ROOT" "/srv/sky-panel/volumes"
  backupsRoot := envOr env "SKY_BACKUPS_ROOT" "/srv/sky-panel/backups"
  containerDns := envList env "SKY_CONTAINER_DNS" "1.1.1.1,8.8.8.8"
  manageFirewall := .fromEnvStr (envOr env "SKY_MANAGE_FIREWALL" "auto")
  database := DatabaseConfig.fromEnv env

/-- What `main` hands to the client loop. -/
structure Booted where
  panelWsUrl : String
  nodeToken : String
  heartbeatInterval : Nat
  dispatcher : Dispatcher
  /-- The settings of the Docker runtime. -/
  dockerSocket : String
  dns : List String
  manageFirewall : Runtime.FirewallMode

/-- `main` up to the loop; the error is printed and the process exits with 1. -/
def boot (cfg : Config) : Except String Booted :=
  if cfg.nodeToken = "" then .error "SKY_NODE_TOKEN is required"
  else .ok {
    panelWsUrl := cfg.panelWsUrl
    nodeToken := cfg.nodeToken
    heartbeatInterval := cfg.heartbeatInterval
    dispatcher := ⟨Text.bytes cfg.volumesRoot, Text.bytes cfg.backupsRoot,
      cfg.database.map fun dbcfg => (dbcfg.publicHost, dbcfg.publicPort)⟩
    dockerSocket := cfg.dockerSocket
    dns := cfg.containerDns
    manageFirewall := cfg.manageFirewall }

variable {env : Environment} {booted : Booted}

theorem boot_eq (starts : boot (Config.fromEnv env) = .ok booted) :
    booted.nodeToken ≠ "" ∧
      booted.dispatcher.db = (DatabaseConfig.fromEnv env).map fun dbcfg => (dbcfg.publicHost, dbcfg.publicPort) := by
  rw [boot] at starts
  split at starts
  · cases starts
  · rename_i named
    cases starts
    exact ⟨named, rfl⟩

theorem envU16_lt (env : Environment) (key : String) (bound : fallback < 2 ^ 16) :
    envU16 env key fallback < 2 ^ 16 := by
  rw [envU16]
  cases parsed : (env key).bind Runtime.parsePort with
  | none => exact bound
  | some port =>
    obtain ⟨text, -, parsed⟩ := Option.bind_eq_some_iff.mp parsed
    exact Runtime.parsePort_lt parsed

theorem publicPort_lt {dbcfg : DatabaseConfig} (configured : DatabaseConfig.fromEnv env = some dbcfg) :
    dbcfg.publicPort < 2 ^ 16 := by
  rw [DatabaseConfig.fromEnv] at configured
  dsimp only at configured
  split at configured
  · cases configured
  · cases configured
    exact envU16_lt _ _ (envU16_lt _ _ (by decide))

theorem database_configured_iff : (DatabaseConfig.fromEnv env).isSome ↔
    ∃ user, env "SKY_DB_ADMIN_USER" = some user ∧ user ≠ "" := by
  rw [DatabaseConfig.fromEnv, envOr]
  dsimp only
  cases env "SKY_DB_ADMIN_USER" with
  | none => simp
  | some user => by_cases empty : user = "" <;> simp [empty]

/-! ## What the node announces -/

theorem announces_iff (dispatcher : Dispatcher) (nodeToken : String) :
    capDatabases ∈ (dispatcher.hello nodeToken).capabilities ↔ dispatcher.db.isSome := by
  rw [Dispatcher.hello, List.mem_cons]
  cases dispatcher.db with
  | none => simp [capDatabases, capPullImage]
  | some address => simp

theorem handle_ran {dispatcher : Dispatcher} {codec : Base64} {cmd : CommandPayload}
    {made : List (Exchange Call Call.Response)} {result : Except String AckPayload}
    (ran : (dispatcher.handle codec cmd).Ran made result) :
    ∃ outcome, (dispatcher.handleInner codec cmd).Ran made outcome ∧ result = .ok (Dispatcher.acked cmd outcome) := by
  obtain ⟨outcome, first, rest, rfl, inner, told⟩ := ran.of_attempt_bind
  cases outcome with
  | error message =>
    cases told
    exact ⟨_, (List.append_nil first).symm ▸ inner, rfl⟩
  | ok value =>
    cases told
    exact ⟨_, (List.append_nil first).symm ▸ inner, rfl⟩

/-- A node without a database refuses, and asks nothing of anyone. -/
theorem database_refused {dispatcher : Dispatcher} {codec : Base64} {cmd : CommandPayload}
    {made : List (Exchange Call Call.Response)} {outcome : Except String (Option ActionResult)}
    (absent : dispatcher.db = none) (database : cmd.action = .createDatabase ∨ cmd.action = .deleteDatabase)
    (ran : (dispatcher.handleInner codec cmd).Ran made outcome) :
    made = [] ∧ outcome = .error "databases are not configured on this node" := by
  rcases database with action | action
  · simp only [Dispatcher.handleInner, action, Dispatcher.createDatabase, absent] at ran
    cases ran
    exact ⟨rfl, rfl⟩
  · simp only [Dispatcher.handleInner, action, Dispatcher.deleteDatabase, absent] at ran
    cases ran
    exact ⟨rfl, rfl⟩

/-- A create request with all its fields is put to the database server, and the ack tells of its
answer and of the public address. -/
theorem createDatabase_asked {dispatcher : Dispatcher} {codec : Base64} {cmd : CommandPayload}
    {made : List (Exchange Call Call.Response)} {outcome : Except String (Option ActionResult)}
    {host name user password : String} {port : Nat} (present : dispatcher.db = some (host, port))
    (action : cmd.action = .createDatabase) (named : cmd.databaseName = some name)
    (account : cmd.databaseUser = some user) (secret : cmd.databasePassword = some password)
    (ran : (dispatcher.handleInner codec cmd).Ran made outcome) :
    ∃ answer : Except String Unit, made = [⟨.createDatabase name user password, answer⟩] ∧
      outcome = answer.map fun _ => some (.createDatabase host port) := by
  simp only [Dispatcher.handleInner, action, Dispatcher.createDatabase, present, named, account, secret] at ran
  cases ran with
  | @call _ _ answer _ _ following =>
    cases answer with
    | error message =>
      cases following
      exact ⟨.error message, rfl, rfl⟩
    | ok _ =>
      cases following
      exact ⟨.ok (), rfl, rfl⟩

theorem deleteDatabase_asked {dispatcher : Dispatcher} {codec : Base64} {cmd : CommandPayload}
    {made : List (Exchange Call Call.Response)} {outcome : Except String (Option ActionResult)}
    {address : String × Nat} {name user : String} (present : dispatcher.db = some address)
    (action : cmd.action = .deleteDatabase) (named : cmd.databaseName = some name)
    (account : cmd.databaseUser = some user) (ran : (dispatcher.handleInner codec cmd).Ran made outcome) :
    ∃ answer : Except String Unit, made = [⟨.deleteDatabase name user, answer⟩] ∧
      outcome = answer.map fun _ => none := by
  simp only [Dispatcher.handleInner, action, Dispatcher.deleteDatabase, present, named, account] at ran
  cases ran with
  | @call _ _ answer _ _ following =>
    cases answer with
    | error message =>
      cases following
      exact ⟨.error message, rfl, rfl⟩
    | ok _ =>
      cases following
      exact ⟨.ok (), rfl, rfl⟩

/-- Whatever the environment, a node that starts announces databases exactly if an admin user is
set. If it does not, every database command is refused with nothing asked; if it does, a command
with all its fields is put to the database server and answered with a public address whose port is
one. -/
theorem databases_as_announced (starts : boot (Config.fromEnv env) = .ok booted) (codec : Base64) (cmd : CommandPayload)
    (made : List (Exchange Call Call.Response)) (result : Except String AckPayload)
    (ran : (booted.dispatcher.handle codec cmd).Ran made result) :
    (capDatabases ∈ (booted.dispatcher.hello booted.nodeToken).capabilities ↔
      ∃ user, env "SKY_DB_ADMIN_USER" = some user ∧ user ≠ "") ∧
    (capDatabases ∉ (booted.dispatcher.hello booted.nodeToken).capabilities →
      cmd.action = .createDatabase ∨ cmd.action = .deleteDatabase →
      made = [] ∧ result = .ok ⟨cmd.commandId, false, some "databases are not configured on this node", none⟩) ∧
    (capDatabases ∈ (booted.dispatcher.hello booted.nodeToken).capabilities →
      ∀ name user, cmd.databaseName = some name → cmd.databaseUser = some user →
        (∀ password, cmd.action = .createDatabase → cmd.databasePassword = some password →
          ∃ host port, port < 2 ^ 16 ∧ ∃ answer : Except String Unit,
            made = [⟨.createDatabase name user password, answer⟩] ∧
            result = .ok (Dispatcher.acked cmd (answer.map fun _ => some (.createDatabase host port)))) ∧
        (cmd.action = .deleteDatabase → ∃ answer : Except String Unit,
          made = [⟨.deleteDatabase name user, answer⟩] ∧
          result = .ok (Dispatcher.acked cmd (answer.map fun _ => none)))) := by
  obtain ⟨-, db⟩ := boot_eq starts
  obtain ⟨outcome, inner, rfl⟩ := handle_ran ran
  simp only [announces_iff]
  refine ⟨?_, fun absent database => ?_, fun present name user named account => ?_⟩
  · rw [db, Option.isSome_map, database_configured_iff]
  · obtain ⟨rfl, rfl⟩ := database_refused (by simpa using absent) database inner
    exact ⟨rfl, rfl⟩
  · rw [db, Option.isSome_map] at present
    obtain ⟨dbcfg, configured⟩ := Option.isSome_iff_exists.mp present
    rw [configured] at db
    constructor
    · intro password action secret
      obtain ⟨answer, rfl, rfl⟩ := createDatabase_asked db action named account secret inner
      exact ⟨_, _, publicPort_lt configured, answer, rfl, rfl⟩
    · intro action
      obtain ⟨answer, rfl, rfl⟩ := deleteDatabase_asked db action named account inner
      exact ⟨answer, rfl, rfl⟩

/-- A node with a token and an admin user, and nothing else set. -/
def shopEnvironment : Environment
  | "SKY_NODE_TOKEN" => some "node-secret"
  | "SKY_DB_ADMIN_USER" => some "root"
  | _ => none

def shopCommand : CommandPayload where
  commandId := "cmd-1"
  action := .createDatabase
  serverId := "s1"
  databaseName := some "shop"
  databaseUser := some "shop_user"
  databasePassword := some "secret"

def shopBooted : Booted where
  panelWsUrl := "ws://127.0.0.1:8080/agent/ws"
  nodeToken := "node-secret"
  heartbeatInterval := 5
  dispatcher := ⟨Text.bytes "/srv/sky-panel/volumes", Text.bytes "/srv/sky-panel/backups", some ("127.0.0.1", 3306)⟩
  dockerSocket := "/var/run/docker.sock"
  dns := envList shopEnvironment "SKY_CONTAINER_DNS" "1.1.1.1,8.8.8.8"
  manageFirewall := .fromEnvStr "auto"

theorem shop_created_as_announced : boot (Config.fromEnv shopEnvironment) = .ok shopBooted ∧
    capDatabases ∈ (shopBooted.dispatcher.hello shopBooted.nodeToken).capabilities := by
  have starts : boot (Config.fromEnv shopEnvironment) = .ok shopBooted := rfl
  have ran : (shopBooted.dispatcher.handle Dispatcher.unusedCodec shopCommand).Ran
      [⟨.createDatabase "shop" "shop_user" "secret", .ok ()⟩]
      (.ok ⟨"cmd-1", true, none, some (.createDatabase "127.0.0.1" 3306)⟩) := .call (.done _)
  have announced := (databases_as_announced starts Dispatcher.unusedCodec shopCommand _ _ ran).1
  exact ⟨starts, announced.mpr ⟨"root", rfl, by decide⟩⟩

end Agent
end SkyDaemon
