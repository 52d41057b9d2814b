import SkyDaemon.Foundation.Json
import SkyDaemon.Protocol.Payloads

/-! Commands as JSON: what a command is serialized to, what is decoded, and every spelling of a
command that the decoder has to tolerate. -/
namespace SkyDaemon.Protocol
open Json

/-! ## Actions -/

namespace Action

def all : List Action :=
  [.create, .start, .stop, .kill, .remove, .pullImage, .consoleInput, .listFiles, .readFile, .writeFile, .renameFile,
    .deleteFile, .mkdir, .backup, .listBackups, .restoreBackup, .deleteBackup, .createDatabase, .deleteDatabase]

/-- The variant's name in `snake_case`. -/
def text : Action → String
  | .create => "create"
  | .start => "start"
  | .stop => "stop"
  | .kill => "kill"
  | .remove => "remove"
  | .pullImage => "pull_image"
  | .consoleInput => "console_input"
  | .listFiles => "list_files"
  | .readFile => "read_file"
  | .writeFile => "write_file"
  | .renameFile => "rename_file"
  | .deleteFile => "delete_file"
  | .mkdir => "mkdir"
  | .backup => "backup"
  | .listBackups => "list_backups"
  | .restoreBackup => "restore_backup"
  | .deleteBackup => "delete_backup"
  | .createDatabase => "create_database"
  | .deleteDatabase => "delete_database"

def ofText (text : String) : Option Action := all.find? (·.text = text)

/-- A unit variant is its name, or an object with its name alone and `null`. -/
def decode : Decoder Action
  | .string text => ofText text
  | .object [(text, .null)] => ofText text
  | _ => none

theorem ofText_text (action : Action) : ofText action.text = some action := by
  cases action <;> decide

end Action

/-! ## Port bindings and specs -/

namespace PortBinding

def fieldNames : List String := ["container_port", "host_port"]

def encode (binding : PortBinding) : Json :=
  .object [("container_port", .string binding.containerPort), ("host_port", .string binding.hostPort)]

def decode : Decoder PortBinding := asStruct fieldNames fun fields => do
  let containerPort ← required asString "container_port" fields
  let hostPort ← required asString "host_port" fields
  pure { containerPort, hostPort }

end PortBinding

namespace ContainerSpec

def fieldNames : List String :=
  ["name", "image", "cmd", "env", "working_dir", "binds", "port_bindings", "memory_bytes", "nano_cpus", "labels"]

def encode (spec : ContainerSpec) : Json := .object
  [("name", .string spec.name), ("image", .string spec.image), ("cmd", .array (spec.cmd.map .string)),
    ("env", .array (spec.env.map .string)), ("working_dir", .string spec.workingDir),
    ("binds", .array (spec.binds.map .string)), ("port_bindings", .array (spec.portBindings.map PortBinding.encode)),
    ("memory_bytes", .integer spec.memoryBytes.toInt), ("nano_cpus", .integer spec.nanoCpus.toInt),
    ("labels", .object (spec.labels.entries.map fun entry => (entry.1, .string entry.2)))]

def decode : Decoder ContainerSpec := asStruct fieldNames fun fields => do
  let name ← required asString "name" fields
  let image ← required asString "image" fields
  let cmd ← withDefault [] (nullDefault [] (asList asString)) "cmd" fields
  let env ← withDefault [] (nullDefault [] (asList asString)) "env" fields
  let workingDir ← withDefault "" asString "working_dir" fields
  let binds ← withDefault [] (nullDefault [] (asList asString)) "binds" fields
  let portBindings ← withDefault [] (nullDefault [] (asList PortBinding.decode)) "port_bindings" fields
  let memoryBytes ← withDefault 0 asInt64 "memory_bytes" fields
  let nanoCpus ← withDefault 0 asInt64 "nano_cpus" fields
  let labels ← withDefault ∅ (nullDefault ∅ (asMap asString)) "labels" fields
  pure { name, image, cmd, env, workingDir, binds, portBindings, memoryBytes, nanoCpus, labels }

/-- Equal specs: a map has no order. -/
structure Same (spec other : ContainerSpec) : Prop where
  labels : spec.labels.toFinmap = other.labels.toFinmap
  rest : { spec with labels := other.labels } = other

end ContainerSpec

/-! ## Commands -/

namespace CommandPayload

def fieldNames : List String :=
  ["command_id", "action", "server_id", "container_id", "spec", "image", "input", "path", "new_path",
    "content_base64", "database_name", "database_user", "database_password"]

def table (command : CommandPayload) : List (String × Option Json) :=
  [("command_id", some (.string command.commandId)), ("action", some (.string command.action.text)),
    ("server_id", some (.string command.serverId)), ("container_id", command.containerId.map .string),
    ("spec", command.spec.map ContainerSpec.encode), ("image", command.image.map .string),
    ("input", command.input.map .string), ("path", command.path.map .string),
    ("new_path", command.newPath.map .string), ("content_base64", command.contentBase64.map .string),
    ("database_name", command.databaseName.map .string), ("database_user", command.databaseUser.map .string),
    ("database_password", command.databasePassword.map .string)]

def encode (command : CommandPayload) : Json := .object (writeFields command.table)

def decode : Decoder CommandPayload := asStruct fieldNames fun fields => do
  let commandId ← required asString "command_id" fields
  let action ← required Action.decode "action" fields
  let serverId ← required asString "server_id" fields
  let containerId ← optionalField asString "container_id" fields
  let spec ← optionalField ContainerSpec.decode "spec" fields
  let image ← optionalField asString "image" fields
  let input ← optionalField asString "input" fields
  let path ← optionalField asString "path" fields
  let newPath ← optionalField asString "new_path" fields
  let contentBase64 ← optionalField asString "content_base64" fields
  let databaseName ← optionalField asString "database_name" fields
  let databaseUser ← optionalField asString "database_user" fields
  let databasePassword ← optionalField asString "database_password" fields
  pure { commandId, action, serverId, containerId, spec, image, input, path, newPath, contentBase64, databaseName,
         databaseUser, databasePassword }

/-- Equal commands, up to the order of the labels. -/
structure Same (command other : CommandPayload) : Prop where
  spec : Option.Rel ContainerSpec.Same command.spec other.spec
  rest : { command with spec := other.spec } = other

end CommandPayload

/-! ## Spellings -/

def SpellsAction : Spelling Action := fun action json => json = .string action.text

/-- Fields may stand in any order, with unknown ones among them. -/
structure BindingFields (binding : PortBinding) (fields : Fields) : Prop where
  single : Single PortBinding.fieldNames fields
  containerPort : Given SpellsString binding.containerPort (fields.lookup "container_port")
  hostPort : Given SpellsString binding.hostPort (fields.lookup "host_port")

def SpellsBinding : Spelling PortBinding := fun binding json =>
  ∃ fields, json = .object fields ∧ BindingFields binding fields

/-- Each empty collection may be written out, be `null` or be left out; an empty or zero scalar
may be left out. -/
structure SpecFields (spec : ContainerSpec) (fields : Fields) : Prop where
  single : Single ContainerSpec.fieldNames fields
  name : Given SpellsString spec.name (fields.lookup "name")
  image : Given SpellsString spec.image (fields.lookup "image")
  cmd : GivenOrNull [] (SpellsList SpellsString) spec.cmd (fields.lookup "cmd")
  env : GivenOrNull [] (SpellsList SpellsString) spec.env (fields.lookup "env")
  workingDir : GivenOrAbsent "" SpellsString spec.workingDir (fields.lookup "working_dir")
  binds : GivenOrNull [] (SpellsList SpellsString) spec.binds (fields.lookup "binds")
  portBindings : GivenOrNull [] (SpellsList SpellsBinding) spec.portBindings (fields.lookup "port_bindings")
  memoryBytes : GivenOrAbsent 0 SpellsInt64 spec.memoryBytes (fields.lookup "memory_bytes")
  nanoCpus : GivenOrAbsent 0 SpellsInt64 spec.nanoCpus (fields.lookup "nano_cpus")
  labels : GivenOrNull ∅ SpellsMap spec.labels (fields.lookup "labels")

def SpellsSpec : Spelling ContainerSpec := fun spec json => ∃ fields, json = .object fields ∧ SpecFields spec fields

/-- Each absent option may be left out or be `null`. -/
structure CommandFields (command : CommandPayload) (fields : Fields) : Prop where
  single : Single CommandPayload.fieldNames fields
  commandId : Given SpellsString command.commandId (fields.lookup "command_id")
  action : Given SpellsAction command.action (fields.lookup "action")
  serverId : Given SpellsString command.serverId (fields.lookup "server_id")
  containerId : GivenIfSome SpellsString command.containerId (fields.lookup "container_id")
  spec : GivenIfSome SpellsSpec command.spec (fields.lookup "spec")
  image : GivenIfSome SpellsString command.image (fields.lookup "image")
  input : GivenIfSome SpellsString command.input (fields.lookup "input")
  path : GivenIfSome SpellsString command.path (fields.lookup "path")
  newPath : GivenIfSome SpellsString command.newPath (fields.lookup "new_path")
  contentBase64 : GivenIfSome SpellsString command.contentBase64 (fields.lookup "content_base64")
  databaseName : GivenIfSome SpellsString command.databaseName (fields.lookup "database_name")
  databaseUser : GivenIfSome SpellsString command.databaseUser (fields.lookup "database_user")
  databasePassword : GivenIfSome SpellsString command.databasePassword (fields.lookup "database_password")

def SpellsCommand : Spelling CommandPayload := fun command json =>
  ∃ fields, json = .object fields ∧ CommandFields command fields

/-! ## Every spelling is read -/

theorem Action.decode_reads : Reads Action.decode SpellsAction := by
  rintro action json rfl
  exact action.ofText_text

theorem PortBinding.decode_reads : Reads PortBinding.decode SpellsBinding := by
  rintro binding json ⟨fields, rfl, spelled⟩
  rw [PortBinding.decode, asStruct_object spelled.single]
  simp [spelled.containerPort.required asString_reads, spelled.hostPort.required asString_reads]

/-- The labels are read up to their order. -/
theorem labels_read {labels : HashMap String String} {fields : Fields}
    (given : GivenOrNull ∅ SpellsMap labels (fields.lookup "labels")) :
    ∃ read, withDefault ∅ (nullDefault ∅ (asMap asString)) "labels" fields = some read ∧
      read.toFinmap = labels.toFinmap := by
  unfold withDefault
  rcases given with ⟨json, found, spelled⟩ | ⟨rfl, missing | null⟩
  · obtain ⟨read, decoded, same⟩ := asMap_reads spelled
    refine ⟨read, ?_, same⟩
    rw [found]
    dsimp only
    rw [nullDefault, asOption_reads decoded rfl]
    rfl
  · exact ⟨∅, by rw [missing], rfl⟩
  · exact ⟨∅, by rw [null]; rfl, rfl⟩

theorem ContainerSpec.decode_reads {spec : ContainerSpec} (spelled : SpellsSpec spec json) :
    ∃ read, ContainerSpec.decode json = some read ∧ read.Same spec := by
  obtain ⟨fields, rfl, spelled⟩ := spelled
  obtain ⟨labels, decoded, same⟩ := labels_read spelled.labels
  refine ⟨{ spec with labels }, ?_, same, rfl⟩
  have strings := asList_reads asString_reads
  rw [ContainerSpec.decode, asStruct_object spelled.single]
  simp [spelled.name.required asString_reads, spelled.image.required asString_reads,
    spelled.cmd.withDefault strings rfl, spelled.env.withDefault strings rfl,
    spelled.workingDir.withDefault asString_reads, spelled.binds.withDefault strings rfl,
    spelled.portBindings.withDefault (asList_reads PortBinding.decode_reads) rfl,
    spelled.memoryBytes.withDefault asInt64_reads, spelled.nanoCpus.withDefault asInt64_reads, decoded]

theorem spec_read {spec : Option ContainerSpec} {fields : Fields}
    (given : GivenIfSome SpellsSpec spec (fields.lookup "spec")) :
    ∃ read, optionalField ContainerSpec.decode "spec" fields = some read ∧
      Option.Rel ContainerSpec.Same read spec := by
  unfold optionalField withDefault
  cases spec with
  | some spec =>
    obtain ⟨json, found, spelled⟩ := given
    obtain ⟨read, decoded, same⟩ := ContainerSpec.decode_reads spelled
    exact ⟨some read, by rw [found]; exact asOption_reads decoded rfl, .some same⟩
  | none =>
    rcases given with missing | null
    · exact ⟨none, by rw [missing], .none⟩
    · exact ⟨none, by rw [null]; rfl, .none⟩

theorem CommandPayload.decode_reads {command : CommandPayload} (spelled : SpellsCommand command json) :
    ∃ read, CommandPayload.decode json = some read ∧ read.Same command := by
  obtain ⟨fields, rfl, spelled⟩ := spelled
  obtain ⟨spec, decoded, same⟩ := spec_read spelled.spec
  refine ⟨{ command with spec }, ?_, same, rfl⟩
  have text {name : String} {value : Option String} (given : GivenIfSome SpellsString value (fields.lookup name)) :
      optionalField asString name fields = some value := given.optionalField asString_reads rfl
  rw [CommandPayload.decode, asStruct_object spelled.single]
  simp [spelled.commandId.required asString_reads, spelled.action.required Action.decode_reads,
    spelled.serverId.required asString_reads, text spelled.containerId, decoded, text spelled.image,
    text spelled.input, text spelled.path, text spelled.newPath, text spelled.contentBase64,
    text spelled.databaseName, text spelled.databaseUser, text spelled.databasePassword]

/-! ## The serialized form is a spelling -/

theorem PortBinding.encode_spells (binding : PortBinding) : SpellsBinding binding binding.encode :=
  ⟨_, rfl, .of_sublist (by decide) (.refl _), ⟨_, rfl, rfl⟩, ⟨_, rfl, rfl⟩⟩

theorem ContainerSpec.encode_spells (spec : ContainerSpec) : SpellsSpec spec spec.encode := by
  have strings := spellsList_map spellsString
  refine ⟨_, rfl, ?_⟩
  constructor
  · exact .of_sublist (by decide) (.refl _)
  · exact ⟨_, rfl, rfl⟩
  · exact ⟨_, rfl, rfl⟩
  · exact .inl ⟨_, rfl, strings spec.cmd⟩
  · exact .inl ⟨_, rfl, strings spec.env⟩
  · exact .inl ⟨_, rfl, rfl⟩
  · exact .inl ⟨_, rfl, strings spec.binds⟩
  · exact .inl ⟨_, rfl, spellsList_map PortBinding.encode_spells spec.portBindings⟩
  · exact .inl ⟨_, rfl, rfl⟩
  · exact .inl ⟨_, rfl, rfl⟩
  · exact .inl ⟨_, rfl, _, .refl _, by rw [List.map_map]; rfl⟩

theorem CommandPayload.encode_spells (command : CommandPayload) : SpellsCommand command command.encode := by
  have distinct : (command.table.map Prod.fst).Nodup := (by decide : fieldNames.Nodup)
  have text {name : String} {value : Option String} (member : (name, value.map .string) ∈ command.table) :=
    writeFields_given distinct spellsString member
  refine ⟨_, rfl, ?_⟩
  constructor
  · exact .of_sublist (by decide) (writeFields_names command.table)
  · exact ⟨_, rfl, rfl⟩
  · exact ⟨_, rfl, rfl⟩
  · exact ⟨_, rfl, rfl⟩
  · exact text (by simp [table])
  · exact writeFields_given distinct ContainerSpec.encode_spells (by simp [table])
  · exact text (by simp [table])
  · exact text (by simp [table])
  · exact text (by simp [table])
  · exact text (by simp [table])
  · exact text (by simp [table])
  · exact text (by simp [table])
  · exact text (by simp [table])
  · exact text (by simp [table])

/-- Decoding undoes encoding and tolerates every spelling of emptiness, in any combination. -/
theorem command_spellings_decode (command : CommandPayload) :
    (∃ read, CommandPayload.decode command.encode = some read ∧ read.Same command) ∧
      ∀ json, SpellsCommand command json →
        ∃ read, CommandPayload.decode json = some read ∧ read.Same command :=
  ⟨CommandPayload.decode_reads command.encode_spells, fun _ spelled => CommandPayload.decode_reads spelled⟩

def sparseSpec : ContainerSpec := ⟨"sky-s1", "game", [], ["EULA=TRUE"], "", [], [], 1, 0, ∅⟩

/-- A create command with little in its spec. -/
def sparseCommand : CommandPayload where
  commandId := "c3"
  action := .create
  serverId := "s1"
  spec := some sparseSpec

def sparseSpecFields : Fields :=
  [("cmd", .null), ("image", .string "game"), ("labels", .null), ("name", .string "sky-s1"), ("comment", .bool true),
    ("env", .array [.string "EULA=TRUE"]), ("port_bindings", .array []), ("memory_bytes", .integer 1)]

def sparseFields : Fields :=
  [("server_id", .string "s1"), ("image", .null), ("spec", .object sparseSpecFields), ("trace", .array []),
    ("action", .string "create"), ("command_id", .string "c3")]

theorem sparseSpec_spelled : SpecFields sparseSpec sparseSpecFields where
  single := by decide
  name := ⟨_, rfl, rfl⟩
  image := ⟨_, rfl, rfl⟩
  cmd := .inr ⟨rfl, .inr rfl⟩
  env := .inl ⟨_, rfl, spellsList_map spellsString _⟩
  workingDir := .inr ⟨rfl, rfl⟩
  binds := .inr ⟨rfl, .inl rfl⟩
  portBindings := .inl ⟨_, rfl, [], rfl, .nil⟩
  memoryBytes := .inl ⟨_, rfl, rfl⟩
  nanoCpus := .inr ⟨rfl, rfl⟩
  labels := .inr ⟨rfl, .inr rfl⟩

theorem sparseCommand_spelled : CommandFields sparseCommand sparseFields where
  single := by decide
  commandId := ⟨_, rfl, rfl⟩
  action := ⟨_, rfl, rfl⟩
  serverId := ⟨_, rfl, rfl⟩
  containerId := .inl rfl
  spec := ⟨_, rfl, _, rfl, sparseSpec_spelled⟩
  image := .inr rfl
  input := .inl rfl
  path := .inl rfl
  newPath := .inl rfl
  contentBase64 := .inl rfl
  databaseName := .inl rfl
  databaseUser := .inl rfl
  databasePassword := .inl rfl

/-- Fields out of order, `null` for an empty command, missing collections and unknown names. -/
theorem sparse_spelling_decodes :
    ∃ read, CommandPayload.decode (.object sparseFields) = some read ∧ read.Same sparseCommand :=
  (command_spellings_decode sparseCommand).2 _ ⟨_, rfl, sparseCommand_spelled⟩

end SkyDaemon.Protocol
