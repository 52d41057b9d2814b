import SkyDaemon.Foundation.Interpret
import SkyDaemon.Agent.Files

/-! `Dispatcher::handle`: every command as a program over the calls it makes. -/
namespace SkyDaemon.Agent
open Protocol Program

structure ContainerHeartbeat where
  serverId : String
  running : Bool
  stats : Stats
  deriving DecidableEq, Repr

namespace Dispatcher

def containerFor (cmd : CommandPayload) : Task String :=
  match cmd.containerId with
  | some id => pure id
  | none => do
      required ("no known container for server " ++ cmd.serverId)
        (← perform (Call.trackedGet cmd.serverId))

def track (serverId containerId : String) : Task Unit := perform (Call.trackedInsert serverId containerId)

def untrack (serverId : String) : Task Unit := perform (Call.trackedRemove serverId)

def emit (serverId : String) (kind : EventKind) (message : String) : Task Unit :=
  perform (Call.emit ⟨serverId, kind, message⟩)

def emitStateChanged (serverId state : String) : Task Unit := emit serverId .stateChanged state

def emitConsole (serverId message : String) : Task Unit := emit serverId .consoleLine message

/-- An attach failure is swallowed: the container did start. -/
def startConsoleStream (serverId containerId : String) : Task Unit := do
  let active ← perform (Call.consolesContains serverId)
  if active then pure ()
  else
    match ← runtime (.attach containerId) with
    | .error _ => pure ()
    | .ok session =>
        perform (Call.consolesInsert serverId session)
        perform (Call.spawnPump serverId session)

/-- The two writes happen under the stdin lock, which is released on every way out. -/
def writeConsole (session : SessionId) (input : String) : Task Unit := do
  perform (Call.lockStdin session)
  match ← perform (Call.writeStdin session (Text.bytes input)) with
  | .error message =>
      perform (Call.unlockStdin session)
      fail message
  | .ok () =>
      let result ← perform (Call.writeStdin session (Text.bytes "\n"))
      perform (Call.unlockStdin session)
      ofExcept result

def create (cmd : CommandPayload) : Task Unit := do
  let spec ← required "create command missing spec" cmd.spec
  let id ← ofExcept (← runtime (.create spec))
  track cmd.serverId id

def pullImage (cmd : CommandPayload) : Task Unit := do
  let image ← required "pull_image command missing image" cmd.image
  emitConsole cmd.serverId ("[sky] pulling image " ++ image ++ "…")
  ofExcept (← runtime (.pull image))
  emitConsole cmd.serverId "[sky] image ready"

def start (cmd : CommandPayload) : Task Unit := do
  let id ← containerFor cmd
  ofExcept (← runtime (.start id))
  track cmd.serverId id
  emitStateChanged cmd.serverId "running"
  startConsoleStream cmd.serverId id

/-- The container is halted and the server announced as offline. -/
def takeOffline (cmd : CommandPayload) (halt : String → Task (Except String Unit)) : Task Unit := do
  let id ← containerFor cmd
  ofExcept (← halt id)
  emitStateChanged cmd.serverId "offline"

def stop (cmd : CommandPayload) : Task Unit := takeOffline cmd fun id => runtime (.stop id 15)

def kill (cmd : CommandPayload) : Task Unit := takeOffline cmd fun id => runtime (.kill id)

def remove (cmd : CommandPayload) : Task Unit := do
  let id ← containerFor cmd
  ofExcept (← runtime (.remove id))
  untrack cmd.serverId
  perform (Call.consolesRemove cmd.serverId)

def consoleInput (cmd : CommandPayload) : Task Unit := do
  let input ← required "console_input command missing input" cmd.input
  let session ← required ("no active console session for server " ++ cmd.serverId)
    (← perform (Call.consolesGet cmd.serverId))
  writeConsole session input

variable (dispatcher : Dispatcher) (codec : Base64)

/-- The server-relative path that a file action requires. -/
def requiredPath (cmd : CommandPayload) (path : Option String) (missing : String) :
    Task UnixPath.OsPath := do
  let rel ← required missing path
  ofExcept (dispatcher.resolvePath cmd.serverId rel)

def createDatabase (cmd : CommandPayload) : Task ActionResult := do
  let (host, port) ← required "databases are not configured on this node" dispatcher.db
  let name ← required "create_database missing database_name" cmd.databaseName
  let user ← required "create_database missing database_user" cmd.databaseUser
  let password ← required "create_database missing database_password" cmd.databasePassword
  ofExcept (← perform (Call.createDatabase name user password))
  pure (.createDatabase host port)

def deleteDatabase (cmd : CommandPayload) : Task Unit := do
  let _ ← required "databases are not configured on this node" dispatcher.db
  let name ← required "delete_database missing database_name" cmd.databaseName
  let user ← required "delete_database missing database_user" cmd.databaseUser
  ofExcept (← perform (Call.deleteDatabase name user))

def handleInner (cmd : CommandPayload) : Task (Option ActionResult) :=
  match cmd.action with
  | .create => do create cmd; pure none
  | .pullImage => do pullImage cmd; pure none
  | .start => do start cmd; pure none
  | .stop => do stop cmd; pure none
  | .kill => do kill cmd; pure none
  | .remove => do remove cmd; pure none
  | .consoleInput => do consoleInput cmd; pure none
  | .listFiles => do
      let dir ← ofExcept (dispatcher.resolvePath cmd.serverId (cmd.path.getD ""))
      pure (some (.listFiles (← listFiles dir)))
  | .readFile => do
      let path ← dispatcher.requiredPath cmd cmd.path "read_file missing path"
      pure (some (← readFile codec path))
  | .writeFile => do
      let path ← dispatcher.requiredPath cmd cmd.path "write_file missing path"
      let content ← required "write_file missing content" cmd.contentBase64
      writeFile codec path content
      pure none
  | .renameFile => do
      let source ← dispatcher.requiredPath cmd cmd.path "rename_file missing path"
      let target ← dispatcher.requiredPath cmd cmd.newPath "rename_file missing new_path"
      context "rename file" (← fs (.rename source target))
      pure none
  | .deleteFile => do
      let path ← dispatcher.requiredPath cmd cmd.path "delete_file missing path"
      deletePath path
      pure none
  | .mkdir => do
      let path ← dispatcher.requiredPath cmd cmd.path "mkdir missing path"
      context "create directory" (← fs (.createDirAll path))
      pure none
  | .backup => do
      let (filename, sizeBytes) ← dispatcher.createBackup cmd.serverId
      emit cmd.serverId .backupDone filename
      pure (some (.backup filename sizeBytes))
  | .listBackups => do pure (some (.listBackups (← dispatcher.listBackups cmd.serverId)))
  | .restoreBackup => do
      let name ← required "restore_backup missing path" cmd.path
      dispatcher.restoreBackup cmd.serverId name
      pure none
  | .deleteBackup => do
      let name ← required "delete_backup missing path" cmd.path
      dispatcher.deleteBackup cmd.serverId name
      pure none
  | .createDatabase => do pure (some (← dispatcher.createDatabase cmd))
  | .deleteDatabase => do dispatcher.deleteDatabase cmd; pure none

/-- The ack that reports a result; a failure is reported inside it. -/
def acked (cmd : CommandPayload) : Except String (Option ActionResult) → AckPayload
  | .ok result => ⟨cmd.commandId, true, none, result⟩
  | .error message => ⟨cmd.commandId, false, some message, none⟩

def handle (cmd : CommandPayload) : Task AckPayload := do
  let result ← (dispatcher.handleInner codec cmd).attempt
  pure (acked cmd result)

/-- A command that runs undisturbed always comes to its ack. -/
theorem handle_run (cmd : CommandPayload) (react : Reaction σ χ Call Call.Response)
    (course : Course σ χ Call Call.Response) :
    (dispatcher.handle codec cmd).execute react course =
      (.ok (acked cmd ((dispatcher.handleInner codec cmd).execute react course).1),
        ((dispatcher.handleInner codec cmd).execute react course).2) := by
  rw [handle, execute_bind, execute_attempt, Effect.bind_run_ok (Effect.attempt_run _ _)]
  rfl

/-- A failed listing leaves the map as it is. -/
def reconcile : Task Unit := do
  match ← runtime .listManaged with
  | .ok found => perform (Call.trackedReconcile found)
  | .error _ => pure ()

def noStats : Stats := ⟨0, 0, 0, 0, 0⟩

/-- One tracked container's report; one that cannot be inspected is left out. -/
def containerHeartbeat (serverId containerId : String) : Task (Option ContainerHeartbeat) := do
  match ← runtime (.inspect containerId) with
  | .error _ => pure none
  | .ok false => pure (some ⟨serverId, false, noStats⟩)
  | .ok true =>
      match ← runtime (.stats containerId) with
      | .ok stats => pure (some ⟨serverId, true, stats⟩)
      | .error _ => pure (some ⟨serverId, true, noStats⟩)

def heartbeats : List (String × String) → Task (List ContainerHeartbeat)
  | [] => pure []
  | (serverId, containerId) :: rest => do
      let first ← containerHeartbeat serverId containerId
      let others ← heartbeats rest
      pure (first.toList ++ others)

def heartbeat : Task (List ContainerHeartbeat) := do
  let snapshot ← perform Call.trackedSnapshot
  heartbeats snapshot

/-- The roots of a node whose operator set none. -/
def defaultDispatcher : Dispatcher where
  volumesRoot := Text.bytes "/srv/sky-panel/volumes"
  backupsRoot := Text.bytes "/srv/sky-panel/backups"
  db := none

/-- For commands that decode and encode nothing. -/
def unusedCodec : Base64 := ⟨fun _ => none, fun _ => ""⟩

end Dispatcher
end SkyDaemon.Agent
