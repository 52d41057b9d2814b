import SkyDaemon.Foundation.HashMap
import SkyDaemon.Foundation.Program
import SkyDaemon.Runtime.Http

/-! `DockerRuntime::start` and the port self-healing behind it, as programs over
requests to the Docker Engine. Docker answers a request with any bytes, or not at all. -/
namespace SkyDaemon.Runtime
open Program

inductive Method where
  | get | post | delete
  deriving DecidableEq, Repr

def Method.text : Method → String
  | .get => "GET"
  | .post => "POST"
  | .delete => "DELETE"

structure Request where
  method : Method
  path : String
  body : Option (List UInt8)
  deriving DecidableEq, Repr

/-- A program that talks to Docker: each request opens a connection of its own and
reads it to the end. -/
abbrev Docker := Program Request fun _ => Except String (List UInt8)

/-- One entry of `/containers/json`. -/
structure ListItem where
  id : String
  names : List String
  labels : HashMap String String
  state : String
  /-- The `PublicPort` of every port entry. -/
  ports : List (Option Nat)

/-- What the HTTP and JSON crates make of an answer; `none` is a decoding error. -/
structure Decoders where
  http : HttpParser
  /-- The `message` of an error body. -/
  message : List UInt8 → Option String
  /-- `HostConfig.PortBindings` with the `HostPort` of each binding. -/
  portBindings : List UInt8 → Option (HashMap String (Option (List String)))
  containers : List UInt8 → Option (List ListItem)

/-- Sixteen hexadecimal digits, in either case. -/
def isHexDigit (byte : UInt8) : Bool :=
  (48 ≤ byte && byte ≤ 57) || (97 ≤ byte && byte ≤ 102) || (65 ≤ byte && byte ≤ 70)

/-- The shape of a UUID, counted in bytes. -/
def looksLikeServerId (s : String) : Bool :=
  (Text.bytes s).length == 36 && (Text.bytes s).zipIdx.all fun (byte, i) =>
    if i = 8 ∨ i = 13 ∨ i = 18 ∨ i = 23 then byte == 45 else isHexDigit byte

def serverIdFromName (name : String) : Option String :=
  (((name.toList.dropWhile (· == '/')).dropPrefix? "sky-".toList).map String.ofList).filter
    looksLikeServerId

/-- The server a container was created for: its label, or else the first name of the
right form; `none` is a container of somebody else. -/
def serverIdFrom (names : List String) (labels : HashMap String String) : Option String :=
  match labels.lookup "sky-panel.server_id" with
  | some value => if value.isEmpty then names.findSome? serverIdFromName else some value
  | none => names.findSome? serverIdFromName

def ListItem.serverId (item : ListItem) : Option String := serverIdFrom item.names item.labels

def eqIgnoreAsciiCase (a b : String) : Bool := a.toList.map Char.toLower == b.toList.map Char.toLower

def ListItem.running (item : ListItem) : Bool := eqIgnoreAsciiCase item.state "running"

def ListItem.publishes (item : ListItem) (wanted : List Nat) : Bool :=
  item.ports.any fun port => port.any (wanted.contains ·)

variable (api : Decoders)

def request (method : Method) (path : String) (body : Option (List UInt8)) :
    Docker (Nat × List UInt8) := do
  let buf ← ofExcept (← perform ⟨method, path, body⟩)
  ofExcept (parseResponse api.http buf)

def expect (method : Method) (path : String) (body : Option (List UInt8)) (ok : List Nat) :
    Docker (List UInt8) := do
  let (status, bytes) ← request api method path body
  if status ∈ ok then pure bytes
  else fail ("docker api " ++ method.text ++ " " ++ path ++ ": unexpected status " ++
    toString status ++ ": " ++ extractDockerError api.message bytes)

def startPath (id : String) : String := "/containers/" ++ id ++ "/start"
def inspectPath (id : String) : String := "/containers/" ++ id ++ "/json"
def removePath (id : String) : String := "/containers/" ++ id ++ "?force=true"
def listPath : String := "/containers/json?all=true"

def removeByName (name : String) : Docker Unit := do
  let _ ← expect api .delete (removePath name) none [204, 404]
  pure ()

/-- The host ports that parse; the others are skipped. -/
def hostPorts (bindings : HashMap String (Option (List String))) : List Nat :=
  (bindings.entries.filterMap fun entry => entry.2).flatten.filterMap fun hostPort =>
    Text.parseUnsigned 10 (2 ^ 16) hostPort.toList

def containerHostPorts (id : String) : Docker (List Nat) := do
  let body ← expect api .get (inspectPath id) none [200]
  let bindings ← required "decode inspect ports" (api.portBindings body)
  pure (hostPorts bindings)

/-- The sweep over the listing; a removal that fails is ignored. -/
def clearPorts (target : String) (wanted : List Nat) (targetSid : Option String) :
    List ListItem → Docker Unit
  | [] => pure ()
  | item :: rest =>
      if item.id = target then clearPorts target wanted targetSid rest
      else if !item.publishes wanted then clearPorts target wanted targetSid rest
      else
        match item.serverId with
        | none => clearPorts target wanted targetSid rest
        | some sid =>
            if targetSid = some sid ∨ !item.running then do
              let _ ← (removeByName api item.id).attempt
              clearPorts target wanted targetSid rest
            else clearPorts target wanted targetSid rest

def freeConflictingPorts (target : String) : Docker Unit := do
  match ← (containerHostPorts api target).attempt with
  | .error _ | .ok [] => pure ()
  | .ok wanted =>
      match ← (expect api .get listPath none [200]).attempt with
      | .error _ => pure ()
      | .ok body =>
          match api.containers body with
          | none => pure ()
          | some items =>
              let targetSid := (items.find? (·.id = target)).bind ListItem.serverId
              clearPorts api target wanted targetSid items

def isPortConflict (err : String) : Bool :=
  "port is already allocated".toList <:+: err.toList ∨ "address already in use".toList <:+: err.toList

def start (id : String) : Docker Unit := do
  let (status, body) ← request api .post (startPath id) none
  if status = 204 ∨ status = 304 then pure ()
  else
    let err := extractDockerError api.message body
    if status = 500 ∧ isPortConflict err then do
      freeConflictingPorts api id
      let _ ← expect api .post (startPath id) none [204, 304]
      pure ()
    else fail ("docker api POST " ++ startPath id ++ ": unexpected status " ++ toString status ++
      ": " ++ err)

end SkyDaemon.Runtime
