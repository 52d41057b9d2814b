import SkyDaemon.Foundation.Program
import SkyDaemon.Foundation.UnixPath
import SkyDaemon.Protocol.Payloads

/-! Everything a command handler asks of its surroundings: the file system, the
container runtime, the database server, the clock, and the dispatcher's own maps
and channels. One call is one completed await or one section under a lock. -/
namespace SkyDaemon.Agent
open Protocol UnixPath

structure IoError where
  notFound : Bool
  message : String
  deriving DecidableEq, Repr

structure Metadata where
  isDir : Bool
  isFile : Bool
  len : Nat
  /-- Modification time in seconds since the epoch, if there is one and it is not earlier. -/
  modified : Option Nat
  deriving DecidableEq, Repr

structure DirEntry where
  fileName : List UInt8
  metadata : Except IoError Metadata

inductive ArchiveNode where
  | directory
  | file (content : List UInt8)
  | other
  deriving DecidableEq, Repr

structure ArchiveEntry where
  path : OsPath
  node : ArchiveNode
  deriving DecidableEq, Repr

/-- File system operations; an archive stands for its open file. -/
inductive FsCall where
  | createDirAll (path : OsPath)
  | readDir (path : OsPath)
  | metadata (path : OsPath)
  | read (path : OsPath)
  | write (path : OsPath) (content : List UInt8)
  | rename (source target : OsPath)
  | removeDirAll (path : OsPath)
  | removeFile (path : OsPath)
  | isDir (path : OsPath)
  | createFile (path : OsPath)
  /-- Compresses everything under the directory into the open archive. -/
  | appendDirAll (source archive : OsPath)
  | syncAll (archive : OsPath)
  | openFile (path : OsPath)
  /-- Reads the entries of the open archive, up to the first that is broken. -/
  | entries (archive : OsPath)
  | unpack (entry : ArchiveEntry) (target : OsPath)

@[reducible] def FsCall.Response : FsCall → Type
  | .createDirAll _ | .write _ _ | .rename _ _ | .removeDirAll _ | .removeFile _ | .createFile _
  | .appendDirAll _ _ | .syncAll _ | .openFile _ | .unpack _ _ => Except IoError Unit
  | .readDir _ => Except IoError (List (Except IoError DirEntry))
  | .metadata _ => Except IoError Metadata
  | .read _ => Except IoError (List UInt8)
  | .isDir _ => Bool
  | .entries _ => Except IoError (List (Except IoError ArchiveEntry))

/-- The paths that an operation hands to the file system. -/
def FsCall.paths : FsCall → List OsPath
  | .createDirAll path | .readDir path | .metadata path | .read path | .write path _
  | .removeDirAll path | .removeFile path | .isDir path | .createFile path | .openFile path
  | .appendDirAll path _ | .unpack _ path => [path]
  | .rename source target => [source, target]
  | .syncAll _ | .entries _ => []

/-- Every path of an operation, with the archive that it has open. -/
def FsCall.reached : FsCall → List OsPath
  | .appendDirAll source archive => [source, archive]
  | .syncAll archive | .entries archive => [archive]
  | operation => operation.paths

theorem FsCall.paths_reached (operation : FsCall) (member : path ∈ operation.paths) : path ∈ operation.reached := by
  cases operation <;> simp_all [paths, reached]

structure ManagedContainer where
  serverId : String
  containerId : String
  deriving DecidableEq, Repr

/-- `cpuPercent` is the bit pattern of the float; the daemon passes it on unread. -/
structure Stats where
  cpuPercent : UInt64
  memUsedBytes : UInt64
  memLimitBytes : UInt64
  netRxBytes : UInt64
  netTxBytes : UInt64
  deriving DecidableEq, Repr

/-- The `ContainerRuntime` trait. -/
inductive RuntimeCall where
  | pull (image : String)
  | create (spec : ContainerSpec)
  | listManaged
  | start (id : String)
  | stop (id : String) (timeoutSecs : Nat)
  | kill (id : String)
  | remove (id : String)
  | inspect (id : String)
  | stats (id : String)
  | attach (id : String)

/-- An attached console is known by a number of its own. -/
abbrev SessionId := Nat

@[reducible] def RuntimeCall.Response : RuntimeCall → Type
  | .pull _ | .start _ | .stop _ _ | .kill _ | .remove _ => Except String Unit
  | .create _ => Except String String
  | .listManaged => Except String (List ManagedContainer)
  | .inspect _ => Except String Bool
  | .stats _ => Except String Stats
  | .attach _ => Except String SessionId

inductive Call where
  | fs (call : FsCall)
  | runtime (call : RuntimeCall)
  | createDatabase (name user password : String)
  | deleteDatabase (name user : String)
  /-- Seconds since the epoch. -/
  | now
  | trackedGet (serverId : String)
  | trackedInsert (serverId containerId : String)
  | trackedRemove (serverId : String)
  /-- Every pair of the map, copied under the lock. -/
  | trackedSnapshot
  /-- `entry(..).or_insert(..)` for every container in turn, under one lock. -/
  | trackedReconcile (found : List ManagedContainer)
  | consolesContains (serverId : String)
  | consolesInsert (serverId : String) (session : SessionId)
  | consolesRemove (serverId : String)
  | consolesGet (serverId : String)
  | spawnPump (serverId : String) (session : SessionId)
  | emit (event : EventPayload)
  | lockStdin (session : SessionId)
  | writeStdin (session : SessionId) (content : List UInt8)
  | unlockStdin (session : SessionId)

@[reducible] def Call.Response : Call → Type
  | .fs call => call.Response
  | .runtime call => call.Response
  | .createDatabase _ _ _ | .deleteDatabase _ _ => Except String Unit
  | .now => Nat
  | .trackedGet _ => Option String
  | .trackedSnapshot => List (String × String)
  | .consolesContains _ => Bool
  | .consolesGet _ => Option SessionId
  | .writeStdin _ _ => Except String Unit
  | .trackedInsert _ _ | .trackedRemove _ | .trackedReconcile _ | .consolesInsert _ _
  | .consolesRemove _ | .spawnPump _ _ | .emit _ | .lockStdin _ | .unlockStdin _ => Unit

abbrev Task := Program Call Call.Response

def fs (call : FsCall) : Task call.Response := Program.perform (Call.fs call)

def runtime (call : RuntimeCall) : Task call.Response := Program.perform (Call.runtime call)

end SkyDaemon.Agent
