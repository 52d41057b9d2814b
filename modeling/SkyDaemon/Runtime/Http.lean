import SkyDaemon.Foundation.Text

/-! HTTP responses of the Docker API. Parsing of the header block and of JSON belongs
to other crates and is a parameter; chunked bodies and errors are the daemon's own. -/
namespace SkyDaemon.Runtime

/-- What `httparse` reports of a complete header block. -/
structure ResponseHead where
  headerLen : Nat
  code : Option Nat
  headers : List (String × List UInt8)

/-- `httparse::Response::parse`; `none` is a partial block. -/
structure HttpParser where
  parse : List UInt8 → Except String (Option ResponseHead)

def cr : UInt8 := 13
def lf : UInt8 := 10

/-- `windows(2).position(|w| w == b"\r\n")`. -/
def findCrlf : List UInt8 → Option Nat
  | [] => none
  | byte :: rest =>
      if [cr, lf] <+: byte :: rest then some 0 else (findCrlf rest).map (· + 1)

/-- `windows(4).position(|w| w == b"\r\n\r\n")`. -/
def findDoubleCrlf : List UInt8 → Option Nat
  | [] => none
  | byte :: rest =>
      if [cr, lf, cr, lf] <+: byte :: rest then some 0 else (findDoubleCrlf rest).map (· + 1)

/-- One round for each chunk; every round consumes its size line. -/
def dechunkLoop : Nat → List UInt8 → List UInt8 → Except String (List UInt8)
  | 0, _, _ => .error "chunked body: missing chunk-size line"
  | fuel + 1, data, out =>
      match findCrlf data with
      | none => .error "chunked body: missing chunk-size line"
      | some nl =>
        -- a size line may carry extensions after the hex size
        let sizeField := (data.take nl).takeWhile (· != 59)
        match Text.fromUtf8 sizeField with
        | none => .error "chunked body: chunk size not UTF-8"
        | some sizeStr =>
          match Text.parseUnsigned 16 (2 ^ 64) (Text.trim sizeStr.toList) with
          | none => .error "chunked body: invalid chunk size"
          | some size =>
            let data := data.drop (nl + 2)
            if size = 0 then .ok out
            else if data.length < size then .error "chunked body: truncated chunk"
            else
              let out := out ++ data.take size
              let data := data.drop size
              dechunkLoop fuel (if [cr, lf] <+: data then data.drop 2 else data) out

def dechunk (data : List UInt8) : Except String (List UInt8) := dechunkLoop (data.length + 1) data []

def isChunked (headers : List (String × List UInt8)) : Bool :=
  headers.any fun (name, value) =>
    name.toList.map Char.toLower == "transfer-encoding".toList &&
      decide ("chunked".toList <:+: (Text.lossy value).toList.map Char.toLower)

def parseResponse (http : HttpParser) (buf : List UInt8) : Except String (Nat × List UInt8) :=
  match http.parse buf with
  | .error _ => .error "parse docker api response"
  | .ok none => .error "docker api response headers incomplete"
  | .ok (some head) =>
      match head.code with
      | none => .error "docker api response missing status code"
      | some code =>
          let body := buf.drop head.headerLen
          if isChunked head.headers then (dechunk body).map fun body => (code, body)
          else .ok (code, body)

/-- `extract_docker_error`, given the decoded `message` of the body if it has one. -/
def extractDockerError (message : List UInt8 → Option String) (body : List UInt8) : String :=
  match message body with
  | some text => if text.isEmpty then Text.lossy body else text
  | none => Text.lossy body

end SkyDaemon.Runtime
