import SkyDaemon.Agent.Calls
import SkyDaemon.Foundation.HttpRequest
import SkyDaemon.Runtime.Docker

/-! The other operations of `DockerRuntime`: image references and pulling, creation with its
recoveries, and the calls that are one request. Last, the bytes that go over a connection. -/
namespace SkyDaemon.Runtime
open Program Protocol
open Agent (ManagedContainer Stats RuntimeCall)

/-! ## Image references -/

/-- Repository and tag. A `:` marks a tag only behind the last `/`, and a digest has none. -/
def splitImageRef (image : String) : String × String :=
  let segment := image.toList.rtakeWhile (· ≠ '/')
  let tag := segment.rtakeWhile (· ≠ ':')
  if '@' ∈ segment then (image, "")
  else if ':' ∈ segment ∧ tag ≠ [] then
    (String.ofList (image.toList.rdrop (tag.length + 1)), String.ofList tag)
  else (image, "latest")

/-- Letters, digits and `-_.~/:`. -/
def keptInQuery (byte : UInt8) : Bool :=
  HttpRequest.letterOrDigit byte || [45, 95, 46, 126, 47, 58].contains byte

def upperDigit (value : Nat) : Char := (Nat.digitChar value).toUpper

def encodeQuery (s : String) : String :=
  String.ofList ((Text.bytes s).flatMap fun byte =>
    if keptInQuery byte then [Char.ofNat byte.toNat]
    else ['%', upperDigit (byte.toNat / 16), upperDigit (byte.toNat % 16)])

/-! ## Bodies -/

/-- One object of the progress stream of a pull. -/
structure PullLine where
  error : Option String
  /-- `errorDetail` with its `message`. -/
  errorDetail : Option (Option String)

structure PortBindingEntry where
  hostPort : String
  deriving DecidableEq, Repr

structure HostConfig where
  binds : List String
  portBindings : HashMap String (List PortBindingEntry)
  memory : Int64
  nanoCpus : Int64
  capDrop : List String
  securityOpt : List String
  dns : List String

structure CreateContainerRequest where
  image : String
  cmd : List String
  env : List String
  workingDir : String
  labels : HashMap String String
  tty : Bool
  openStdin : Bool
  hostConfig : HostConfig

/-- `entry(container_port).or_default().push(..)`. -/
def addBinding (bindings : HashMap String (List PortBindingEntry)) (binding : PortBinding) :
    HashMap String (List PortBindingEntry) :=
  bindings.insert binding.containerPort
    ((bindings.lookup binding.containerPort).getD [] ++ [⟨binding.hostPort⟩])

def toCreateRequest (spec : ContainerSpec) (dns : List String) : CreateContainerRequest where
  image := spec.image
  cmd := spec.cmd
  env := spec.env
  workingDir := spec.workingDir
  labels := spec.labels
  tty := false
  openStdin := true
  hostConfig :=
    { binds := spec.binds
      portBindings := spec.portBindings.foldl addBinding ∅
      memory := spec.memoryBytes
      nanoCpus := spec.nanoCpus
      capDrop := []
      securityOpt := ["no-new-privileges"]
      dns }

/-- An entry of the listing as `list_managed` decodes it. -/
structure ManagedItem where
  id : String
  names : List String
  labels : HashMap String String

/-- The runtime's setting that reaches Docker, and what the JSON crate makes of bodies. -/
structure DockerRuntime extends Decoders where
  dns : List String
  encode : CreateContainerRequest → Except String (List UInt8)
  pullLine : List UInt8 → Option PullLine
  /-- The `Id` of a created container. -/
  created : List UInt8 → Option String
  /-- `State.Running`. -/
  running : List UInt8 → Option Bool
  managed : List UInt8 → Option (List ManagedItem)
  /-- A sample, as `parse_docker_stats` converts it. -/
  sample : List UInt8 → Option Stats

def isAsciiWhitespace (byte : UInt8) : Bool := [32, 9, 10, 12, 13].contains byte

/-- The first non-empty error of the stream; blank lines and lines that are no object are skipped. -/
def extractPullError (decode : List UInt8 → Option PullLine) (body : List UInt8) : Option String :=
  (body.splitOn lf).findSome? fun line =>
    if line.all isAsciiWhitespace then none
    else do
      let line ← decode line
      (line.error.filter (· ≠ "")).or (line.errorDetail.join.filter (· ≠ ""))

/-! ## Operations -/

variable (docker : DockerRuntime)

def pullPath (image : String) : String :=
  let (name, tag) := splitImageRef image
  "/images/create?fromImage=" ++ encodeQuery name ++ (if tag = "" then "" else "&tag=" ++ encodeQuery tag)

def pullImage (image : String) : Docker Unit := do
  let (status, body) ← request docker.toDecoders .post (pullPath image) none
  if status ≠ 200 then
    fail ("pull image " ++ image ++ ": unexpected status " ++ toString status ++ ": " ++
      extractDockerError docker.message body)
  else
    match extractPullError docker.pullLine body with
    | some message => fail ("pull image " ++ image ++ ": " ++ message)
    | none => pure ()

def imagePath (image : String) : String := "/images/" ++ encodeQuery image ++ "/json"

def imagePresent (image : String) : Docker Bool := do
  match ← (request docker.toDecoders .get (imagePath image) none).attempt with
  | .ok (200, _) => pure true
  | _ => pure false

def pull (image : String) : Docker Unit := do
  if ← imagePresent docker image then pure () else pullImage docker image

/-- Posts until the container is there: a missing image is pulled and a name that is taken is
freed, each once. -/
def createContainer (path : String) (body : List UInt8) (image name : String) (pulled cleared : Bool) :
    Docker (List UInt8) := do
  let (status, resp) ← request docker.toDecoders .post path (some body)
  if status = 201 then pure resp
  else if status = 404 ∧ pulled = false then do
    pullImage docker image
    createContainer path body image name true cleared
  else if status = 409 ∧ cleared = false ∧ name ≠ "" then do
    removeByName docker.toDecoders name
    createContainer path body image name pulled true
  else fail ("docker api POST " ++ path ++ ": unexpected status " ++ toString status ++ ": " ++
    extractDockerError docker.message resp)
termination_by (!pulled).toNat + (!cleared).toNat
decreasing_by all_goals simp_all

def createPath (name : String) : String := "/containers/create" ++ (if name = "" then "" else "?name=" ++ name)

/-- Opening the firewall afterwards asks nothing of Docker and cannot fail. -/
def create (spec : ContainerSpec) : Docker String := do
  let body ← ofExcept (docker.encode (toCreateRequest spec docker.dns))
  let resp ← createContainer docker (createPath spec.name) body spec.image spec.name false false
  required "decode create response" (docker.created resp)

def ManagedItem.container (item : ManagedItem) : Option ManagedContainer :=
  let fromLabel := (item.labels.lookup "sky-panel.server_id").filter fun value => !value.isEmpty
  let fromName := item.names.findSome? fun name =>
    (((name.toList.dropWhile (· == '/')).dropPrefix? "sky-".toList).map String.ofList).filter looksLikeServerId
  (fromLabel.or fromName).map fun serverId => ⟨serverId, item.id⟩

def listManaged : Docker (List ManagedContainer) := do
  let body ← expect docker.toDecoders .get listPath none [200]
  let items ← required "decode container list" (docker.managed body)
  pure (items.filterMap ManagedItem.container)

def stopPath (id : String) (seconds : Nat) : String := "/containers/" ++ id ++ "/stop?t=" ++ toString seconds
def killPath (id : String) : String := "/containers/" ++ id ++ "/kill"
def statsPath (id : String) : String := "/containers/" ++ id ++ "/stats?stream=false"

def stop (id : String) (timeoutSecs : Nat) : Docker Unit := do
  let _ ← expect docker.toDecoders .post (stopPath id timeoutSecs) none [204, 304]
  pure ()

def kill (id : String) : Docker Unit := do
  let _ ← expect docker.toDecoders .post (killPath id) none [204]
  pure ()

def remove (id : String) : Docker Unit := do
  let _ ← expect docker.toDecoders .delete (removePath id) none [204]
  pure ()

def inspect (id : String) : Docker Bool := do
  let body ← expect docker.toDecoders .get (inspectPath id) none [200]
  required "decode inspect response" (docker.running body)

def stats (id : String) : Docker Stats := do
  let body ← expect docker.toDecoders .get (statsPath id) none [200]
  required "decode stats response" (docker.sample body)

/-! ## The bytes of a request -/

def apiVersion : String := "v1.43"

/-- What `request` writes before the body. -/
def Request.head (request : Request) : List UInt8 :=
  Text.bytes (request.method.text ++ " /" ++ apiVersion ++ request.path ++
    " HTTP/1.1\r\nHost: docker\r\nConnection: close\r\n" ++
    (match request.body with
    | some body => "Content-Type: application/json\r\n" ++ ("Content-Length: " ++ toString body.length ++ "\r\n")
    | none => "") ++ "\r\n")

/-- What `attach` writes. -/
def attachHead (id : String) : List UInt8 :=
  Text.bytes ("POST /" ++ apiVersion ++ "/containers/" ++ id ++
    "/attach?stream=1&stdin=1&stdout=1&stderr=1 HTTP/1.1\r\nHost: docker\r\nConnection: Upgrade\r\nUpgrade: tcp\r\n\r\n")

/-- A request some run of the operation makes. An attach has a connection of its own. -/
def Requests : RuntimeCall → Request → Prop
  | .pull image => (pull docker image).Makes
  | .create spec => (create docker spec).Makes
  | .listManaged => (listManaged docker).Makes
  | .start id => (start docker.toDecoders id).Makes
  | .stop id timeoutSecs => (stop docker id timeoutSecs).Makes
  | .kill id => (kill docker id).Makes
  | .remove id => (remove docker id).Makes
  | .inspect id => (inspect docker id).Makes
  | .stats id => (stats docker id).Makes
  | .attach _ => fun _ => False

/-- Some run of the operation writes these bytes before a body. -/
inductive Writes : RuntimeCall → List UInt8 → Prop where
  | request {call : RuntimeCall} {asked : Request} (made : Requests docker call asked) : Writes call asked.head
  | attach (id : String) : Writes (.attach id) (attachHead id)

end SkyDaemon.Runtime
