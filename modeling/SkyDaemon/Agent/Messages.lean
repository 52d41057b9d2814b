import SkyDaemon.Agent.Dispatcher
import SkyDaemon.Protocol.Freshness
import SkyDaemon.Protocol.Wire

/-! The messages that `send_signed` puts on the wire, from the payload to the signed envelope, and
what the other end gets back from it. Texts are written and read by the JSON crate, which is a
parameter. -/
namespace SkyDaemon.Agent
open Protocol Json

/-! ## Payloads -/

structure HelloPayload where
  nodeToken : String
  agentVersion : String
  capabilities : List String
  deriving DecidableEq, Repr

def agentVersion : String := "0.6.0"
def capPullImage : String := "pull_image"
def capDatabases : String := "databases"

/-- The first message of every session. -/
def Dispatcher.hello (dispatcher : Dispatcher) (nodeToken : String) : HelloPayload where
  nodeToken
  agentVersion
  capabilities := capPullImage :: if dispatcher.db.isSome then [capDatabases] else []

namespace HelloPayload

def fieldNames : List String := ["node_token", "agent_version", "capabilities"]

def encode (payload : HelloPayload) : Json := .object
  [("node_token", .string payload.nodeToken), ("agent_version", .string payload.agentVersion),
    ("capabilities", .array (payload.capabilities.map .string))]

def decode : Decoder HelloPayload := asStruct fieldNames fun fields => do
  let nodeToken ← required asString "node_token" fields
  let agentVersion ← required asString "agent_version" fields
  let capabilities ← withDefault [] (asList asString) "capabilities" fields
  pure { nodeToken, agentVersion, capabilities }

end HelloPayload

def asBool : Decoder Bool
  | .bool value => some value
  | _ => none

def asUInt64 : Decoder UInt64 := fun json => (asUnsigned (2 ^ 64) json).map UInt64.ofNat

/-- What the protocol uses of the JSON crate. A number that is not whole keeps its text until a double
is asked for, which may then be a neighbour of the one that was written. -/
structure JsonCrate where
  /-- `to_vec` of a payload. -/
  text : Json → String
  /-- `from_str`, up to the type that is asked for. -/
  parse : String → Option Json
  /-- `to_string` of an envelope, whose payload is copied verbatim. -/
  envelopeText : Envelope → String
  envelope : String → Option Envelope
  /-- The text of a finite double, given by its bits. -/
  float : UInt64 → String
  double : String → Option UInt64

/-- The exponent is not the one of the infinities. -/
def isFinite (bits : UInt64) : Bool := bits.toNat / 2 ^ 52 % 2 ^ 11 != 2 ^ 11 - 1

namespace JsonCrate
variable (crate : JsonCrate)

def encodeDouble (bits : UInt64) : Json := if isFinite bits then .decimal (crate.float bits) else .null

def asDouble : Decoder UInt64
  | .decimal text => crate.double text
  | .integer value => crate.double value.repr
  | _ => none

/-- The double that a reader gets for a finite one that was written. -/
def reread (bits : UInt64) : UInt64 := (crate.double (crate.float bits)).getD bits

end JsonCrate

namespace ContainerHeartbeat

def fieldNames : List String :=
  ["server_id", "running", "cpu_percent", "mem_used_bytes", "mem_limit_bytes", "net_rx_bytes", "net_tx_bytes"]

def fields (crate : JsonCrate) (entry : ContainerHeartbeat) : Fields :=
  [("server_id", .string entry.serverId), ("running", .bool entry.running),
    ("cpu_percent", crate.encodeDouble entry.stats.cpuPercent),
    ("mem_used_bytes", .integer entry.stats.memUsedBytes.toNat),
    ("mem_limit_bytes", .integer entry.stats.memLimitBytes.toNat),
    ("net_rx_bytes", .integer entry.stats.netRxBytes.toNat), ("net_tx_bytes", .integer entry.stats.netTxBytes.toNat)]

def encode (crate : JsonCrate) (entry : ContainerHeartbeat) : Json := .object (entry.fields crate)

def decode (crate : JsonCrate) : Decoder ContainerHeartbeat := asStruct fieldNames fun fields => do
  let serverId ← required asString "server_id" fields
  let running ← required asBool "running" fields
  let cpuPercent ← required crate.asDouble "cpu_percent" fields
  let memUsedBytes ← required asUInt64 "mem_used_bytes" fields
  let memLimitBytes ← required asUInt64 "mem_limit_bytes" fields
  let netRxBytes ← required asUInt64 "net_rx_bytes" fields
  let netTxBytes ← required asUInt64 "net_tx_bytes" fields
  pure { serverId, running, stats := { cpuPercent, memUsedBytes, memLimitBytes, netRxBytes, netTxBytes } }

/-- The report with the percentage that a reader gets. -/
def reread (crate : JsonCrate) (entry : ContainerHeartbeat) : ContainerHeartbeat :=
  { entry with stats := { entry.stats with cpuPercent := crate.reread entry.stats.cpuPercent } }

end ContainerHeartbeat

def encodeHeartbeat (crate : JsonCrate) (containers : List ContainerHeartbeat) : Json :=
  .object [("containers", .array (containers.map (ContainerHeartbeat.encode crate)))]

def decodeHeartbeat (crate : JsonCrate) : Decoder (List ContainerHeartbeat) :=
  asStruct ["containers"] (withDefault [] (asList (ContainerHeartbeat.decode crate)) "containers")

def EventKind.text : EventKind → String
  | .consoleLine => "console_line"
  | .stateChanged => "state_changed"
  | .backupDone => "backup_done"
  | .backupFailed => "backup_failed"

def EventKind.ofText (text : String) : Option EventKind :=
  [EventKind.consoleLine, .stateChanged, .backupDone, .backupFailed].find? (EventKind.text · = text)

def EventKind.decode : Decoder EventKind
  | .string text => EventKind.ofText text
  | .object [(text, .null)] => EventKind.ofText text
  | _ => none

def encodeEvent (event : EventPayload) : Json := .object
  [("server_id", .string event.serverId), ("kind", .string (EventKind.text event.kind)),
    ("message", .string event.message)]

def decodeEvent : Decoder EventPayload := asStruct ["server_id", "kind", "message"] fun fields => do
  let serverId ← required asString "server_id" fields
  let kind ← required EventKind.decode "kind" fields
  let message ← required asString "message" fields
  pure { serverId, kind, message }

/-! Results go through `to_value`, which keeps the fields of an object sorted by name. -/

def encodeFileEntry (entry : FileEntry) : Json := .object
  [("is_dir", .bool entry.isDir), ("name", .string entry.name), ("size_bytes", .integer entry.sizeBytes)]

def encodeBackupEntry (entry : BackupEntry) : Json := .object
  [("created_at", .integer entry.createdAt), ("filename", .string entry.filename),
    ("size_bytes", .integer entry.sizeBytes)]

def encodeResult : ActionResult → Json
  | .listFiles entries => .object [("entries", .array (entries.map encodeFileEntry))]
  | .readFile contentBase64 sizeBytes =>
      .object [("content_base64", .string contentBase64), ("size_bytes", .integer sizeBytes)]
  | .backup filename sizeBytes => .object [("filename", .string filename), ("size_bytes", .integer sizeBytes)]
  | .listBackups backups => .object [("backups", .array (backups.map encodeBackupEntry))]
  | .createDatabase host port => .object [("host", .string host), ("port", .integer port)]

def decodeFileEntry : Decoder FileEntry := asStruct ["name", "is_dir", "size_bytes"] fun fields => do
  let name ← required asString "name" fields
  let isDir ← required asBool "is_dir" fields
  let sizeBytes ← required (asUnsigned (2 ^ 64)) "size_bytes" fields
  pure { name, isDir, sizeBytes }

def decodeBackupEntry : Decoder BackupEntry := asStruct ["filename", "size_bytes", "created_at"] fun fields => do
  let filename ← required asString "filename" fields
  let sizeBytes ← required (asUnsigned (2 ^ 64)) "size_bytes" fields
  let createdAt ← required (asUnsigned (2 ^ 64)) "created_at" fields
  pure { filename, sizeBytes, createdAt }

/-- The result of an action, by the type that the action has. -/
def decodeResult : Action → Decoder ActionResult
  | .listFiles => asStruct ["entries"] fun fields =>
      (required (asList decodeFileEntry) "entries" fields).map .listFiles
  | .readFile => asStruct ["content_base64", "size_bytes"] fun fields => do
      let contentBase64 ← required asString "content_base64" fields
      let sizeBytes ← required (asUnsigned (2 ^ 64)) "size_bytes" fields
      pure (.readFile contentBase64 sizeBytes)
  | .backup => asStruct ["filename", "size_bytes"] fun fields => do
      let filename ← required asString "filename" fields
      let sizeBytes ← required (asUnsigned (2 ^ 64)) "size_bytes" fields
      pure (.backup filename sizeBytes)
  | .listBackups => asStruct ["backups"] fun fields =>
      (required (asList decodeBackupEntry) "backups" fields).map .listBackups
  | .createDatabase => asStruct ["host", "port"] fun fields => do
      let host ← required asString "host" fields
      let port ← required (asUnsigned (2 ^ 16)) "port" fields
      pure (.createDatabase host port)
  | _ => fun _ => none

def ackTable (ack : AckPayload) : List (String × Option Json) :=
  [("command_id", some (.string ack.commandId)), ("ok", some (.bool ack.ok)), ("error", ack.error.map .string),
    ("result", ack.result.map encodeResult)]

def encodeAck (ack : AckPayload) : Json := .object (writeFields (ackTable ack))

/-- An ack as it is decoded by who knows the action that it answers. -/
def decodeAck (action : Action) : Decoder AckPayload :=
  asStruct ["command_id", "ok", "error", "result"] fun fields => do
    let commandId ← required asString "command_id" fields
    let ok ← required asBool "ok" fields
    let error ← optionalField asString "error" fields
    let result ← optionalField (decodeResult action) "result" fields
    pure { commandId, ok, error, result }

/-! ## Payloads are read back -/

theorem asList_map {decode : Decoder β} {encode : α → Json} {read : α → β} {values : List α}
    (each : ∀ value ∈ values, decode (encode value) = some (read value)) :
    asList decode (.array (values.map encode)) = some (values.map read) := by
  rw [asList]
  induction values with
  | nil => rfl
  | cons first rest ih =>
    obtain ⟨head, tail⟩ := List.forall_mem_cons.mp each
    rw [List.map_cons, List.mapM_cons, head, ih tail]
    rfl

theorem asList_encoded {decode : Decoder α} {encode : α → Json} {values : List α}
    (each : ∀ value ∈ values, decode (encode value) = some value) :
    asList decode (.array (values.map encode)) = some values := by
  rw [asList_map each, List.map_id']

theorem asUnsigned_nat {n limit : Nat} (small : n < limit) : asUnsigned limit (.integer n) = some n := by
  rw [asUnsigned, if_pos ⟨Int.natCast_nonneg n, Int.ofNat_lt.mpr small⟩, Int.toNat_natCast]

theorem asUInt64_toNat (value : UInt64) : asUInt64 (.integer value.toNat) = some value := by
  rw [asUInt64, asUnsigned_nat value.toNat_lt, Option.map_some, UInt64.ofNat_toNat]

theorem HelloPayload.decode_encode (payload : HelloPayload) : HelloPayload.decode payload.encode = some payload := by
  have capabilities : asList asString (.array (payload.capabilities.map .string)) = some payload.capabilities :=
    asList_encoded fun _ _ => rfl
  rw [encode, decode, asStruct_object]
  · change ((asList asString (.array (payload.capabilities.map .string))).bind _) = _
    rw [capabilities]
    rfl
  · exact .of_sublist (by decide) (.refl _)

theorem required_uint64 {fields : Fields} {value : UInt64} (found : fields.lookup name = some (.integer value.toNat)) :
    required asUInt64 name fields = some value := by
  rw [required, found, Option.bind_some, asUInt64_toNat]

/-- A finite double that the crate can read is written as a number and read as one. -/
theorem asDouble_encode {crate : JsonCrate} {bits : UInt64} (finite : isFinite bits = true)
    (read : (crate.double (crate.float bits)).isSome = true) :
    crate.asDouble (crate.encodeDouble bits) = some (crate.reread bits) := by
  obtain ⟨value, found⟩ := Option.isSome_iff_exists.mp read
  rw [JsonCrate.encodeDouble, if_pos finite, JsonCrate.asDouble, JsonCrate.reread, found]
  rfl

theorem ContainerHeartbeat.decode_encode {crate : JsonCrate} (entry : ContainerHeartbeat)
    (finite : isFinite entry.stats.cpuPercent = true)
    (read : (crate.double (crate.float entry.stats.cpuPercent)).isSome = true) :
    ContainerHeartbeat.decode crate (entry.encode crate) = some (entry.reread crate) := by
  have serverId : required asString "server_id" (entry.fields crate) = some entry.serverId := rfl
  have running : required asBool "running" (entry.fields crate) = some entry.running := rfl
  have cpuPercent : required crate.asDouble "cpu_percent" (entry.fields crate) =
      some (crate.reread entry.stats.cpuPercent) := asDouble_encode finite read
  have memUsed : required asUInt64 "mem_used_bytes" (entry.fields crate) = some entry.stats.memUsedBytes :=
    required_uint64 rfl
  have memLimit : required asUInt64 "mem_limit_bytes" (entry.fields crate) = some entry.stats.memLimitBytes :=
    required_uint64 rfl
  have netRx : required asUInt64 "net_rx_bytes" (entry.fields crate) = some entry.stats.netRxBytes :=
    required_uint64 rfl
  have netTx : required asUInt64 "net_tx_bytes" (entry.fields crate) = some entry.stats.netTxBytes :=
    required_uint64 rfl
  rw [encode, decode, asStruct_object]
  · rw [serverId, running, cpuPercent, memUsed, memLimit, netRx, netTx]
    rfl
  · exact .of_sublist (by decide) (.refl _)

theorem required_nat {fields : Fields} {n limit : Nat} (found : fields.lookup name = some (.integer n))
    (small : n < limit) : required (asUnsigned limit) name fields = some n := by
  rw [required, found, Option.bind_some, asUnsigned_nat small]

/-- The action that the result belongs to. -/
def resultAction : ActionResult → Action
  | .listFiles _ => .listFiles
  | .readFile _ _ => .readFile
  | .backup _ _ => .backup
  | .listBackups _ => .listBackups
  | .createDatabase _ _ => .createDatabase

/-- The numbers are in the range of their types. -/
def ResultSized : ActionResult → Prop
  | .listFiles entries => ∀ entry ∈ entries, entry.sizeBytes < 2 ^ 64
  | .readFile _ sizeBytes => sizeBytes < 2 ^ 64
  | .backup _ sizeBytes => sizeBytes < 2 ^ 64
  | .listBackups backups => ∀ entry ∈ backups, entry.sizeBytes < 2 ^ 64 ∧ entry.createdAt < 2 ^ 64
  | .createDatabase _ port => port < 2 ^ 16

theorem decodeFileEntry_encode (entry : FileEntry) (sized : entry.sizeBytes < 2 ^ 64) :
    decodeFileEntry (encodeFileEntry entry) = some entry := by
  rw [decodeFileEntry, encodeFileEntry, asStruct_object]
  · rw [required_nat rfl sized]
    rfl
  · exact (by decide : ∀ name ∈ ["name", "is_dir", "size_bytes"],
      ["is_dir", "name", "size_bytes"].count name ≤ 1)

theorem decodeBackupEntry_encode (entry : BackupEntry) (size : entry.sizeBytes < 2 ^ 64)
    (created : entry.createdAt < 2 ^ 64) : decodeBackupEntry (encodeBackupEntry entry) = some entry := by
  rw [decodeBackupEntry, encodeBackupEntry, asStruct_object]
  · rw [required_nat rfl size, required_nat rfl created]
    rfl
  · exact (by decide : ∀ name ∈ ["filename", "size_bytes", "created_at"],
      ["created_at", "filename", "size_bytes"].count name ≤ 1)

theorem decodeResult_encode (result : ActionResult) (sized : ResultSized result) :
    decodeResult (resultAction result) (encodeResult result) = some result := by
  cases result with
  | listFiles entries =>
    have items : required (asList decodeFileEntry) "entries" [("entries", .array (entries.map encodeFileEntry))] =
        some entries := asList_encoded fun entry member => decodeFileEntry_encode entry (sized entry member)
    rw [resultAction, decodeResult, encodeResult, asStruct_object]
    · rw [items]
      rfl
    · exact .of_sublist (by decide) (.refl _)
  | readFile contentBase64 sizeBytes =>
    rw [resultAction, decodeResult, encodeResult, asStruct_object]
    · rw [required_nat rfl sized]
      rfl
    · exact .of_sublist (by decide) (.refl _)
  | backup filename sizeBytes =>
    rw [resultAction, decodeResult, encodeResult, asStruct_object]
    · rw [required_nat rfl sized]
      rfl
    · exact .of_sublist (by decide) (.refl _)
  | listBackups backups =>
    have items : required (asList decodeBackupEntry) "backups" [("backups", .array (backups.map encodeBackupEntry))] =
        some backups :=
      asList_encoded fun entry member => decodeBackupEntry_encode entry (sized entry member).1 (sized entry member).2
    rw [resultAction, decodeResult, encodeResult, asStruct_object]
    · rw [items]
      rfl
    · exact .of_sublist (by decide) (.refl _)
  | createDatabase host port =>
    rw [resultAction, decodeResult, encodeResult, asStruct_object]
    · rw [required_nat rfl sized]
      rfl
    · exact .of_sublist (by decide) (.refl _)

theorem decodeResult_null (action : Action) : decodeResult action .null = none := by
  cases action <;> rfl

theorem decodeAck_encode (ack : AckPayload) (action : Action)
    (result : ∀ result ∈ ack.result, resultAction result = action ∧ ResultSized result) :
    decodeAck action (encodeAck ack) = some ack := by
  have distinct : ((ackTable ack).map Prod.fst).Nodup := (by decide : ["command_id", "ok", "error", "result"].Nodup)
  have error : GivenIfSome SpellsString ack.error ((writeFields (ackTable ack)).lookup "error") :=
    writeFields_given distinct spellsString (by simp [ackTable])
  have outcome : optionalField (decodeResult action) "result" (writeFields (ackTable ack)) = some ack.result := by
    rw [optionalField, withDefault, writeFields_lookup distinct (show ("result", ack.result.map encodeResult) ∈ _ by
      simp [ackTable])]
    cases found : ack.result with
    | none => rfl
    | some value =>
      obtain ⟨rfl, sized⟩ := result value found
      exact asOption_reads (decodeResult_encode value sized) (decodeResult_null _)
  rw [decodeAck, encodeAck, asStruct_object]
  · rw [error.optionalField asString_reads rfl, outcome]
    rfl
  · exact .of_sublist (by decide) (writeFields_names (ackTable ack))

theorem decodeEvent_encode (event : EventPayload) : decodeEvent (encodeEvent event) = some event := by
  obtain ⟨serverId, kind, message⟩ := event
  cases kind <;> rfl

/-! ## Messages -/

inductive WireMessage where
  | hello (payload : HelloPayload)
  | heartbeat (containers : List ContainerHeartbeat)
  | event (payload : EventPayload)
  /-- The ack of a command with the given action. -/
  | ack (action : Action) (payload : AckPayload)

namespace WireMessage

def kind : WireMessage → String
  | .hello _ => EnvelopeType.hello
  | .heartbeat _ => EnvelopeType.heartbeat
  | .event _ => EnvelopeType.event
  | .ack _ _ => EnvelopeType.ack

def encode (crate : JsonCrate) : WireMessage → Json
  | .hello payload => payload.encode
  | .heartbeat containers => encodeHeartbeat crate containers
  | .event payload => encodeEvent payload
  | .ack _ payload => encodeAck payload

/-- What the other end makes of a payload; it knows the action that an ack answers. -/
def decode (crate : JsonCrate) (action : Action) (kind : String) (json : Json) : Option WireMessage :=
  if kind = EnvelopeType.hello then (HelloPayload.decode json).map .hello
  else if kind = EnvelopeType.heartbeat then (decodeHeartbeat crate json).map .heartbeat
  else if kind = EnvelopeType.event then (decodeEvent json).map .event
  else if kind = EnvelopeType.ack then (decodeAck action json).map (.ack action)
  else none

/-- `decode_payload`, by the envelope's kind. -/
def ofEnvelope (crate : JsonCrate) (action : Action) (envelope : Envelope) : Option WireMessage :=
  (crate.parse envelope.payload).bind (decode crate action envelope.kind)

/-- The envelope that `send_signed` makes. -/
def signed (crate : JsonCrate) (prims : Primitives) (nodeToken : String) (clock : Clock) (random : Vector UInt8 16)
    (message : WireMessage) : Envelope :=
  Envelope.signed prims (Text.bytes nodeToken) message.kind (crate.text (message.encode crate)) clock random

/-- The bits of the doubles in a message. -/
def doubles : WireMessage → List UInt64
  | .heartbeat containers => containers.map (·.stats.cpuPercent)
  | .hello _ | .event _ | .ack _ _ => []

/-- The result that an ack carries. -/
def result : WireMessage → Option ActionResult
  | .ack _ payload => payload.result
  | .hello _ | .heartbeat _ | .event _ => none

/-- The message that a reader gets: only percentages go through a text. -/
def reread (crate : JsonCrate) : WireMessage → WireMessage
  | .heartbeat containers => .heartbeat (containers.map (ContainerHeartbeat.reread crate))
  | message => message

/-- Percentages are finite, and a result is one of the action and in range. -/
def Sendable (action : Action) : WireMessage → Prop
  | .hello _ | .event _ => True
  | .heartbeat containers => ∀ entry ∈ containers, isFinite entry.stats.cpuPercent = true
  | .ack answered payload =>
      answered = action ∧ ∀ result ∈ payload.result, resultAction result = action ∧ ResultSized result

end WireMessage

/-- `send_signed`: the text that goes over the socket. -/
def sendSigned (crate : JsonCrate) (prims : Primitives) (nodeToken : String) (clock : Clock)
    (random : Vector UInt8 16) (message : WireMessage) : String :=
  crate.envelopeText (message.signed crate prims nodeToken clock random)

/-- The crate reads what it wrote for a message in an envelope. -/
structure JsonCrate.ReadsBack (crate : JsonCrate) (message : WireMessage) (envelope : Envelope) : Prop where
  payload : crate.parse (crate.text (message.encode crate)) = some (message.encode crate)
  envelope : crate.envelope (crate.envelopeText envelope) = some envelope
  doubles : ∀ bits ∈ message.doubles, isFinite bits = true → (crate.double (crate.float bits)).isSome = true

/-! ## From payload to payload -/

namespace WireMessage
variable {crate : JsonCrate} {action : Action}

theorem decode_encode {message : WireMessage} (sendable : message.Sendable action)
    (read : ∀ bits ∈ message.doubles, isFinite bits = true → (crate.double (crate.float bits)).isSome = true) :
    decode crate action message.kind (message.encode crate) = some (message.reread crate) := by
  cases message with
  | hello payload =>
    change decode crate action EnvelopeType.hello payload.encode = _
    rw [decode, if_pos rfl, HelloPayload.decode_encode]
    rfl
  | heartbeat containers =>
    have decoded : decodeHeartbeat crate (encodeHeartbeat crate containers) =
        some (containers.map (ContainerHeartbeat.reread crate)) := by
      rw [encodeHeartbeat, decodeHeartbeat, asStruct_object]
      · refine asList_map fun entry member => entry.decode_encode (sendable entry member) ?_
        exact read _ (List.mem_map_of_mem member) (sendable entry member)
      · exact .of_sublist (by decide) (.refl _)
    change decode crate action EnvelopeType.heartbeat (encodeHeartbeat crate containers) = _
    rw [decode, if_neg (by decide), if_pos rfl, decoded]
    rfl
  | event payload =>
    change decode crate action EnvelopeType.event (encodeEvent payload) = _
    rw [decode, if_neg (by decide), if_neg (by decide), if_pos rfl, decodeEvent_encode]
    rfl
  | ack answered payload =>
    obtain ⟨rfl, result⟩ := sendable
    change decode crate answered EnvelopeType.ack (encodeAck payload) = _
    rw [decode, if_neg (by decide), if_neg (by decide), if_neg (by decide), if_pos rfl,
      decodeAck_encode payload answered result]
    rfl

/-- A signed message verifies under the node's token while the clocks are at most thirty seconds apart. -/
theorem signed_verifies (message : WireMessage) (prims : Primitives) (nodeToken : String) {clock later : Clock}
    (random : Vector UInt8 16) (near : |later.secs - clock.secs| ≤ 30) :
    (message.signed crate prims nodeToken clock random).verify prims later (Text.bytes nodeToken) = true := by
  refine Envelope.verify_iff.mpr ⟨?_, rfl⟩
  rw [timestampIsFresh_iff]
  change later.secs - (nowUnix clock).toInt ≤ 30 ∧ (nowUnix clock).toInt - later.secs ≤ 30 ∨ _
  rw [nowUnix_toInt]
  rw [abs_le] at near
  exact .inl ⟨by omega, by omega⟩

end WireMessage

/-- A message arrives: its text reads as an envelope that verifies, and the payload decodes to the
message, up to how doubles are read. -/
theorem sent_message_arrives {crate : JsonCrate} {prims : Primitives} {nodeToken : String} {action : Action}
    {message : WireMessage} (sendable : message.Sendable action) {clock later : Clock} {random : Vector UInt8 16}
    (reads : crate.ReadsBack message (message.signed crate prims nodeToken clock random))
    (near : |later.secs - clock.secs| ≤ 30) :
    ∃ envelope, crate.envelope (sendSigned crate prims nodeToken clock random message) = some envelope ∧
      envelope.verify prims later (Text.bytes nodeToken) = true ∧
      WireMessage.ofEnvelope crate action envelope = some (message.reread crate) := by
  refine ⟨_, reads.envelope, message.signed_verifies prims nodeToken random near, ?_⟩
  change (crate.parse (crate.text (message.encode crate))).bind (WireMessage.decode crate action message.kind) = _
  rw [reads.payload, Option.bind_some, message.decode_encode sendable reads.doubles]

end SkyDaemon.Agent
