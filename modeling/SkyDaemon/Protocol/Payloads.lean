import SkyDaemon.Foundation.HashMap

/-! Payloads of the signed wire protocol. Field names follow `payloads.rs`. -/
namespace SkyDaemon.Protocol

/-! Envelope `type` values. -/
namespace EnvelopeType

def hello : String := "hello"
def heartbeat : String := "heartbeat"
def event : String := "event"
def ack : String := "ack"
def command : String := "command"

def all : List String := [hello, heartbeat, event, ack, command]

end EnvelopeType

inductive EventKind where
  | consoleLine | stateChanged | backupDone | backupFailed
  deriving DecidableEq, Repr

structure EventPayload where
  serverId : String
  kind : EventKind
  message : String
  deriving DecidableEq, Repr

structure PortBinding where
  containerPort : String
  hostPort : String
  deriving DecidableEq, Repr

structure ContainerSpec where
  name : String
  image : String
  cmd : List String
  env : List String
  workingDir : String
  binds : List String
  portBindings : List PortBinding
  memoryBytes : Int64
  nanoCpus : Int64
  labels : HashMap String String
  deriving DecidableEq

inductive Action where
  | create | start | stop | kill | remove | pullImage | consoleInput
  | listFiles | readFile | writeFile | renameFile | deleteFile | mkdir
  | backup | listBackups | restoreBackup | deleteBackup
  | createDatabase | deleteDatabase
  deriving DecidableEq, Repr

structure CommandPayload where
  commandId : String
  action : Action
  serverId : String
  containerId : Option String := none
  spec : Option ContainerSpec := none
  image : Option String := none
  input : Option String := none
  path : Option String := none
  newPath : Option String := none
  contentBase64 : Option String := none
  databaseName : Option String := none
  databaseUser : Option String := none
  databasePassword : Option String := none
  deriving DecidableEq

structure FileEntry where
  name : String
  isDir : Bool
  sizeBytes : Nat
  deriving DecidableEq, Repr

structure BackupEntry where
  filename : String
  sizeBytes : Nat
  createdAt : Nat
  deriving DecidableEq, Repr

/-- The per-action results that an ack carries as a JSON value. -/
inductive ActionResult where
  | listFiles (entries : List FileEntry)
  | readFile (contentBase64 : String) (sizeBytes : Nat)
  | backup (filename : String) (sizeBytes : Nat)
  | listBackups (backups : List BackupEntry)
  | createDatabase (host : String) (port : Nat)
  deriving DecidableEq, Repr

structure AckPayload where
  commandId : String
  ok : Bool
  error : Option String
  result : Option ActionResult
  deriving DecidableEq, Repr

end SkyDaemon.Protocol
