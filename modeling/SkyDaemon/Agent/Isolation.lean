import SkyDaemon.Agent.Handlers

/-! Which parts of the file system a command can reach. The guards look at the
paths inside a server's directory and never at the server id, so what keeps two
servers apart is that the id is a file name. -/
namespace SkyDaemon.Agent
open Protocol UnixPath Program

namespace Dispatcher
variable (dispatcher : Dispatcher) (cwd : Location)

/-- At or below the directory that the server has directly under one of the roots. -/
def Isolated (serverId : String) (path : OsPath) : Prop :=
  ∃ name : FileName, name.val = Text.bytes serverId ∧
    (resolve cwd dispatcher.volumesRoot ++ [name] <+: resolve cwd path ∨
      resolve cwd dispatcher.backupsRoot ++ [name] <+: resolve cwd path)

def IsolatedCall (serverId : String) : Call → Prop
  | .fs operation => ∀ path ∈ operation.paths, dispatcher.Isolated cwd serverId path
  | _ => True

variable {dispatcher cwd} {serverId : String}

/-! ## Locations of a server -/

/-- The archive's own name stays in the directory, whatever the clock says. -/
theorem backupFilename_plain (secs : Nat) : Plain (Text.bytes (backupFilename secs)) := by
  have first : (Text.bytes (backupFilename secs)).head? = some 98 := by
    rw [backupFilename, Text.bytes_append, Text.bytes_append]
    rfl
  have free : '/' ∉ (backupFilename secs).toList := by
    simp only [backupFilename, String.toList_append, List.mem_append, not_or]
    exact ⟨⟨by decide, Text.nat_repr_free secs rfl⟩, by decide⟩
  refine ⟨?_, ?_, ?_, fun member => free ((Text.mem_bytes (by decide) _).mp member)⟩
  · intro same
    simp [same] at first
  · intro same
    simp [same, dot] at first
  · intro same
    simp [same, dot] at first

section Named
variable (name : FileName) (named : name.val = Text.bytes serverId)
include named

theorem resolve_child (root : OsPath) :
    resolve cwd (join root (Text.bytes serverId)) = resolve cwd root ++ [name] := by
  rw [resolve_join, ← named, resolve_name]

theorem isolated_volume (down : descends rel = true) :
    dispatcher.Isolated cwd serverId (join (join dispatcher.volumesRoot (Text.bytes serverId)) rel) := by
  refine ⟨name, named, .inl ?_⟩
  rw [resolve_join, resolve_child name named, resolve_descends down]
  exact List.prefix_append _ _

theorem isolated_backups (down : descends rel = true) :
    dispatcher.Isolated cwd serverId (join (dispatcher.backupsDir serverId) rel) := by
  refine ⟨name, named, .inr ?_⟩
  rw [resolve_join, backupsDir, resolve_child name named, resolve_descends down]
  exact List.prefix_append _ _

theorem isolated_volume_root :
    dispatcher.Isolated cwd serverId (join dispatcher.volumesRoot (Text.bytes serverId)) :=
  ⟨name, named, .inl (resolve_child name named _ ▸ List.prefix_rfl)⟩

theorem isolated_backups_root :
    dispatcher.Isolated cwd serverId (dispatcher.backupsDir serverId) :=
  ⟨name, named, .inr (resolve_child name named _ ▸ List.prefix_rfl)⟩

theorem isolated_archive (secs : Nat) : dispatcher.Isolated cwd serverId (archivePath dispatcher serverId secs) := by
  have single := components_name ⟨_, backupFilename_plain secs⟩
  simp only at single
  exact isolated_backups name named (by simp [descends, single])

theorem components_volume (root : OsPath) :
    ∃ front, components (join root (Text.bytes serverId)) = front ++ [.normal name] := by
  have single : (pieces name.val).filterMap inner = [.normal name] := by
    simp [pieces_plain name.property.2.2.2, inner_normal]
  have relative : hasRoot name.val = false := by
    refine descends_relative ?_
    simp [descends, components_name]
  rw [← named]
  by_cases empty : root = []
  · exact ⟨[], by rw [empty, join_nil relative, components_name]; rfl⟩
  · exact ⟨components root, by rw [components_join relative empty, single]⟩

/-- The directory above a file of the server is isolated, unless the path names
nothing below the server's directory and so stands for that directory itself. -/
theorem isolated_parent_iff (down : descends rel = true) :
    ∃ up, parent (join (join dispatcher.volumesRoot (Text.bytes serverId)) rel) = some up ∧
      (dispatcher.Isolated cwd serverId up ↔ names rel ≠ [] ∨
        resolve cwd dispatcher.backupsRoot ++ [name] <+: resolve cwd dispatcher.volumesRoot) := by
  obtain ⟨front, ends⟩ := components_volume name named dispatcher.volumesRoot
  have nonempty : join dispatcher.volumesRoot (Text.bytes serverId) ≠ [] := by
    intro empty
    rw [empty] at ends
    simpa [components, leading, pieces_nil, inner_nil, hasRoot] using congrArg List.length ends
  have all : components (join (join dispatcher.volumesRoot (Text.bytes serverId)) rel) =
      front ++ [.normal name] ++ (names rel).map .normal := by
    rw [components_join (descends_relative down) nonempty, ends, descends_pieces down]
  have location : resolve cwd (join (join dispatcher.volumesRoot (Text.bytes serverId)) rel) =
      resolve cwd dispatcher.volumesRoot ++ [name] ++ names rel := by
    rw [resolve_join, resolve_child name named, resolve_descends down]
  rcases List.eq_nil_or_concat (names rel) with none | ⟨inside, last, some⟩
  · rw [none, List.map_nil, List.append_nil] at all
    obtain ⟨up, found, above⟩ := parent_of_name all
    have top : resolve cwd up = resolve cwd dispatcher.volumesRoot := by
      rw [above, none, List.append_nil] at location
      exact List.append_cancel_right location
    refine ⟨up, found, ?_⟩
    rw [Isolated, top, none]
    constructor
    · rintro ⟨same, named', inside | nested⟩
      · have := inside.length_le
        simp at this
      · have equal : same = name := Subtype.ext (named'.trans named.symm)
        exact .inr (equal ▸ nested)
    · rintro (absent | nested)
      · contradiction
      · exact ⟨name, named, .inr nested⟩
  · rw [List.concat_eq_append] at some
    rw [some, List.map_append, ← List.append_assoc] at all
    obtain ⟨up, found, above⟩ := parent_of_name all
    have deeper : resolve cwd up = resolve cwd dispatcher.volumesRoot ++ [name] ++ inside := by
      rw [above, some, ← List.append_assoc] at location
      exact List.append_cancel_right location
    refine ⟨up, found, iff_of_true ⟨name, named, .inl ?_⟩ (.inl (by simp [some]))⟩
    rw [deeper]
    exact List.prefix_append _ _

end Named

/-! ## Commands -/

/-- Whether the command passes its own checks and reaches the file system. -/
def touchesFiles (codec : Base64) (cmd : CommandPayload) : Bool :=
  let down (path : Option String) := path.any fun rel => descends (Text.bytes rel)
  let single (path : Option String) := path.any fun name =>
    match components (Text.bytes name) with
    | [.normal _] => true
    | _ => false
  match cmd.action with
  | .listFiles => descends (Text.bytes (cmd.path.getD ""))
  | .readFile | .deleteFile | .mkdir => down cmd.path
  | .writeFile => down cmd.path &&
      (cmd.contentBase64.bind codec.decode).any fun content => content.length ≤ maxFileBytes
  | .renameFile => down cmd.path && down cmd.newPath
  | .restoreBackup | .deleteBackup => single cmd.path
  | .backup | .listBackups => true
  | _ => false

/-- A `WriteFile` whose path has no component but `.` asks for the parent of the
server's directory to be created. -/
def writesAbove (cmd : CommandPayload) : Prop :=
  cmd.action = .writeFile ∧ names (Text.bytes (cmd.path.getD "")) = []

section Reached
variable {codec : Base64} {cmd : CommandPayload} {operation : FsCall}

theorem FileCall.touches (call : dispatcher.FileCall codec cmd operation) : touchesFiles codec cmd = true := by
  cases call with
  | stat action given down => rcases action with action | action <;> simp [touchesFiles, action, given, down]
  | _ => simp_all [touchesFiles]

/-- Every path of a command whose server id is a file name is the server's own, the archive that it
has open included. -/
theorem FileCall.isolated (call : dispatcher.FileCall codec cmd operation) (name : FileName)
    (named : name.val = Text.bytes cmd.serverId) (above : writesAbove cmd →
      resolve cwd dispatcher.backupsRoot ++ [name] <+: resolve cwd dispatcher.volumesRoot) :
    ∀ path ∈ operation.reached, dispatcher.Isolated cwd cmd.serverId path := by
  have inside {rel : OsPath} (down : descends rel = true) :
      dispatcher.Isolated cwd cmd.serverId (join (volumePath dispatcher cmd.serverId) rel) :=
    isolated_volume name named down
  have listed {rel : OsPath} {file : FileName} (single : components rel = [.normal file]) :
      dispatcher.Isolated cwd cmd.serverId (join (dispatcher.backupsDir cmd.serverId) rel) :=
    isolated_backups name named (by simp [descends, single])
  cases call <;> simp only [FsCall.reached, FsCall.paths, List.forall_mem_cons, List.not_mem_nil,
    IsEmpty.forall_iff, implies_true, and_true]
  case list down => exact inside down
  case stat down => exact inside down
  case read down => exact inside down
  case lead rel bytes up action given down content small found =>
    obtain ⟨up', found', isolated⟩ := isolated_parent_iff name named down
    obtain rfl := Option.some.inj (found'.symm.trans found)
    refine isolated.mpr ?_
    by_cases nothing : names (Text.bytes rel) = []
    · exact .inr (above ⟨action, by rw [given]; exact nothing⟩)
    · exact .inl nothing
  case write down _ _ => exact inside down
  case rename down _ down' => exact ⟨inside down, inside down'⟩
  case removeDir down => exact inside down
  case remove down => exact inside down
  case mkdir down => exact inside down
  case backupsDir => exact isolated_backups_root name named
  case look => exact isolated_volume_root name named
  case create secs => exact isolated_archive name named secs
  case append secs => exact ⟨isolated_volume_root name named, isolated_archive name named secs⟩
  case sync secs => exact isolated_archive name named secs
  case measure secs => exact isolated_archive name named secs
  case listBackups => exact isolated_backups_root name named
  case openArchive single => exact listed single
  case volume => exact isolated_volume_root name named
  case entries single => exact listed single
  case unpack safe =>
    simp only [Core.isSafeRelativePath, Bool.and_eq_true] at safe
    exact inside safe.2
  case deleteBackup single => exact listed single

end Reached

/-- A command whose server id is a file name stays inside that server's directories. -/
theorem handleInner_all (codec : Base64) (cmd : CommandPayload)
    (safe : touchesFiles codec cmd = true → ∃ name : FileName,
      name.val = Text.bytes cmd.serverId ∧ (writesAbove cmd →
        resolve cwd dispatcher.backupsRoot ++ [name] <+: resolve cwd dispatcher.volumesRoot)) :
    (dispatcher.handleInner codec cmd).All (dispatcher.IsolatedCall cwd cmd.serverId) := by
  refine (dispatcher.handleInner_calls codec cmd).mono fun call may => ?_
  cases call with
  | fs operation =>
    obtain ⟨name, named, above⟩ := safe (FileCall.touches may)
    exact fun path member => FileCall.isolated may name named above path (operation.paths_reached member)
  | _ => trivial

/-- The first operation of a handler hands over its path. -/
theorem isolated_of_all {operation : FsCall} {f : operation.Response → Task α}
    (all : (fs operation >>= f).All (dispatcher.IsolatedCall cwd serverId))
    (member : path ∈ operation.paths) : dispatcher.Isolated cwd serverId path :=
  all.1 path member

/-- A write creates the parent first, where there is one. -/
theorem writeFile_isolated {codec : Base64} (decoded : codec.decode encoded = some content)
    (small : content.length ≤ maxFileBytes)
    (all : (writeFile codec path encoded).All (dispatcher.IsolatedCall cwd serverId)) :
    dispatcher.Isolated cwd serverId ((parent path).getD path) := by
  unfold writeFile at all
  simp only [decoded, required_some, done_bind, Nat.not_lt.mpr small, gt_iff_lt, if_false] at all
  cases found : parent path with
  | none =>
    rw [found] at all
    exact isolated_of_all all List.mem_cons_self
  | some up =>
    rw [found] at all
    exact isolated_of_all all List.mem_cons_self

theorem writeFile_touches {codec : Base64} {cmd : CommandPayload} (action : cmd.action = .writeFile)
    (touches : touchesFiles codec cmd = true) :
    ∃ rel encoded content, cmd.path = some rel ∧ descends (Text.bytes rel) = true ∧
      cmd.contentBase64 = some encoded ∧ codec.decode encoded = some content ∧
      content.length ≤ maxFileBytes := by
  simp only [touchesFiles, action, Bool.and_eq_true] at touches
  obtain ⟨rel, given, down⟩ := (Option.any_eq_true _ _).mp touches.1
  obtain ⟨content, decoded, small⟩ := (Option.any_eq_true _ _).mp touches.2
  obtain ⟨encoded, given', decoded⟩ := Option.bind_eq_some_iff.mp decoded
  exact ⟨rel, encoded, content, given, down, given', decoded, of_decide_eq_true small⟩

/-- The program of a write that passes its checks, after them. -/
theorem writeFile_all_of {codec : Base64} {cmd : CommandPayload} (action : cmd.action = .writeFile)
    (given : cmd.path = some rel) (down : descends (Text.bytes rel) = true)
    (content : cmd.contentBase64 = some encoded) {P : Call → Prop}
    (all : (dispatcher.handleInner codec cmd).All P) :
    (writeFile codec (join (join dispatcher.volumesRoot (Text.bytes cmd.serverId))
      (Text.bytes rel)) encoded).All P := by
  simp only [handleInner, action] at all
  exact (all_required_bind.mp (all_requiredPath_bind.mp all rel given down) encoded content).of_bind

/-- A command that reaches the file system hands it a path of the server, so the
server id is a file name. -/
theorem named_of_all (codec : Base64) (cmd : CommandPayload)
    (all : (dispatcher.handleInner codec cmd).All (dispatcher.IsolatedCall cwd cmd.serverId))
    (touches : touchesFiles codec cmd = true) : ∃ path, dispatcher.Isolated cwd cmd.serverId path := by
  cases action : cmd.action <;> simp only [touchesFiles, action, Bool.false_eq_true] at touches
  case writeFile =>
    obtain ⟨rel, encoded, content, given, down, given', decoded, small⟩ :=
      writeFile_touches action (by simpa only [touchesFiles, action] using touches)
    exact ⟨_, writeFile_isolated decoded small (writeFile_all_of action given down given' all)⟩
  all_goals simp only [handleInner, action] at all
  case listFiles =>
    exact ⟨_, isolated_of_all (all_resolvePath_bind.mp all touches).of_bind List.mem_cons_self⟩
  case readFile =>
    obtain ⟨rel, given, down⟩ := (Option.any_eq_true _ _).mp touches
    exact ⟨_, isolated_of_all (all_requiredPath_bind.mp all rel given down).of_bind List.mem_cons_self⟩
  case renameFile =>
    simp only [Bool.and_eq_true] at touches
    obtain ⟨rel, given, down⟩ := (Option.any_eq_true _ _).mp touches.1
    obtain ⟨target, given', down'⟩ := (Option.any_eq_true _ _).mp touches.2
    have all := all_requiredPath_bind.mp (all_requiredPath_bind.mp all rel given down) target given' down'
    exact ⟨_, isolated_of_all all List.mem_cons_self⟩
  case deleteFile =>
    obtain ⟨rel, given, down⟩ := (Option.any_eq_true _ _).mp touches
    exact ⟨_, isolated_of_all (all_requiredPath_bind.mp all rel given down).of_bind List.mem_cons_self⟩
  case mkdir =>
    obtain ⟨rel, given, down⟩ := (Option.any_eq_true _ _).mp touches
    exact ⟨_, isolated_of_all (all_requiredPath_bind.mp all rel given down) List.mem_cons_self⟩
  case backup => exact ⟨_, isolated_of_all all.of_bind List.mem_cons_self⟩
  case listBackups => exact ⟨_, isolated_of_all all.of_bind List.mem_cons_self⟩
  case restoreBackup =>
    obtain ⟨name, given, single⟩ := (Option.any_eq_true _ _).mp touches
    have all := all_required_bind.mp all name given
    split at single
    · rename_i file only
      have all := (all_withContext _ _).mp (all_backupPath_bind.mp all.of_bind file only)
      exact ⟨_, isolated_of_all all List.mem_cons_self⟩
    · contradiction
  case deleteBackup =>
    obtain ⟨name, given, single⟩ := (Option.any_eq_true _ _).mp touches
    have all := all_required_bind.mp all name given
    split at single
    · rename_i file only
      have all := all_backupPath_bind.mp all.of_bind file only
      exact ⟨_, isolated_of_all all List.mem_cons_self⟩
    · contradiction

/-! ## Isolation of commands -/

/-- Every path of every file operation the command can make is the server's own. -/
def IsolatedCommand (dispatcher : Dispatcher) (codec : Base64) (cwd : Location) (cmd : CommandPayload) :
    Prop :=
  ∀ operation, (dispatcher.handleInner codec cmd).Makes (.fs operation) →
    ∀ path ∈ operation.paths, dispatcher.Isolated cwd cmd.serverId path

/-- Neither root lies inside the directory that the server has under the other root. -/
def RootsApart (dispatcher : Dispatcher) (cwd : Location) (serverId : String) : Prop :=
  ∀ name : FileName, name.val = Text.bytes serverId →
    ¬ resolve cwd dispatcher.volumesRoot ++ [name] <+: resolve cwd dispatcher.backupsRoot ∧
    ¬ resolve cwd dispatcher.backupsRoot ++ [name] <+: resolve cwd dispatcher.volumesRoot

theorem isolatedCommand_iff_all {codec : Base64} {cmd : CommandPayload} :
    dispatcher.IsolatedCommand codec cwd cmd ↔
      (dispatcher.handleInner codec cmd).All (dispatcher.IsolatedCall cwd cmd.serverId) := by
  rw [all_iff_makes]
  constructor
  · intro isolated call makes
    cases call with
    | fs operation => exact isolated operation makes
    | _ => trivial
  · intro all operation makes
    exact all _ makes

theorem isolated_writesAbove {codec : Base64} {cmd : CommandPayload} (name : FileName)
    (named : name.val = Text.bytes cmd.serverId) (touches : touchesFiles codec cmd = true)
    (all : (dispatcher.handleInner codec cmd).All (dispatcher.IsolatedCall cwd cmd.serverId))
    (above : writesAbove cmd) :
    resolve cwd dispatcher.backupsRoot ++ [name] <+: resolve cwd dispatcher.volumesRoot := by
  obtain ⟨action, nothing⟩ := above
  obtain ⟨rel, encoded, content, given, down, given', decoded, small⟩ := writeFile_touches action touches
  have isolated := writeFile_isolated decoded small (writeFile_all_of action given down given' all)
  obtain ⟨up, found, iff⟩ := isolated_parent_iff name named down
  rw [found, Option.getD_some] at isolated
  rw [given, Option.getD_some] at nothing
  exact (iff.mp isolated).resolve_left fun something => something nothing

/-- No root lies inside a directory of the server. -/
theorem RootsApart.outside (apart : dispatcher.RootsApart cwd serverId)
    (named : name.val = Text.bytes serverId) {root root' : OsPath}
    (member : root = dispatcher.volumesRoot ∨ root = dispatcher.backupsRoot)
    (member' : root' = dispatcher.volumesRoot ∨ root' = dispatcher.backupsRoot) :
    ¬ resolve cwd root ++ [name] <+: resolve cwd root' := by
  have strict : ¬ resolve cwd root ++ [name] <+: resolve cwd root := by
    intro longer
    have := longer.length_le
    simp at this
  rcases member with rfl | rfl <;> rcases member' with rfl | rfl
  · exact strict
  · exact (apart name named).1
  · exact (apart name named).2
  · exact strict

theorem Isolated.directory (isolated : dispatcher.Isolated cwd serverId path) :
    ∃ (name : FileName) (root : OsPath), name.val = Text.bytes serverId ∧
      (root = dispatcher.volumesRoot ∨ root = dispatcher.backupsRoot) ∧
      resolve cwd root ++ [name] <+: resolve cwd path := by
  obtain ⟨name, named, inside | inside⟩ := isolated
  · exact ⟨name, _, named, .inl rfl, inside⟩
  · exact ⟨name, _, named, .inr rfl, inside⟩

/-- Two directories of different servers have nothing below both. -/
theorem disjoint_of_apart (different : serverId ≠ serverId')
    (apart : dispatcher.RootsApart cwd serverId) (apart' : dispatcher.RootsApart cwd serverId')
    (isolated : dispatcher.Isolated cwd serverId path) (isolated' : dispatcher.Isolated cwd serverId' path')
    (below : resolve cwd path <+: location) : ¬ resolve cwd path' <+: location := by
  intro below'
  obtain ⟨name, root, named, member, inside⟩ := isolated.directory
  obtain ⟨name', root', named', member', inside'⟩ := isolated'.directory
  have distinct : name ≠ name' := by
    rintro rfl
    exact different (Text.bytes_injective (named.symm.trans named'))
  have differ {a b : Location} {n n' : FileName} (distinct : n ≠ n') : a ++ [n] ≠ b ++ [n'] := by
    intro same
    exact distinct (List.cons.inj (List.append_inj' same rfl).2).1
  rcases List.prefix_or_prefix_of_prefix (inside.trans below) (inside'.trans below') with first | second
  · rcases List.prefix_concat_iff.mp first with same | shorter
    · exact differ distinct same
    · exact apart.outside named member member' shorter
  · rcases List.prefix_concat_iff.mp second with same | shorter
    · exact differ distinct.symm same
    · exact apart'.outside named' member' member shorter

/-- A command is isolated exactly when it fails before it reaches the file system,
or its server id is a file name and it does not write to the server's directory
itself. Isolated commands of different servers then share no file, as long as
neither root lies inside a server's directory under the other. -/
theorem isolatedCommand_iff (dispatcher : Dispatcher) (codec : Base64) (cwd : Location) :
    (∀ cmd, dispatcher.IsolatedCommand codec cwd cmd ↔
      (touchesFiles codec cmd = true → ∃ name : FileName, name.val = Text.bytes cmd.serverId ∧
        (writesAbove cmd →
          resolve cwd dispatcher.backupsRoot ++ [name] <+: resolve cwd dispatcher.volumesRoot))) ∧
    (∀ cmd cmd', cmd.serverId ≠ cmd'.serverId →
      dispatcher.RootsApart cwd cmd.serverId → dispatcher.RootsApart cwd cmd'.serverId →
      dispatcher.IsolatedCommand codec cwd cmd → dispatcher.IsolatedCommand codec cwd cmd' →
      ∀ operation operation', (dispatcher.handleInner codec cmd).Makes (.fs operation) →
        (dispatcher.handleInner codec cmd').Makes (.fs operation') →
        ∀ path ∈ operation.paths, ∀ path' ∈ operation'.paths, ∀ location,
          resolve cwd path <+: location → ¬ resolve cwd path' <+: location) := by
  refine ⟨fun cmd => ?_, ?_⟩
  · rw [isolatedCommand_iff_all]
    constructor
    · intro all touches
      obtain ⟨path, name, named, -⟩ := named_of_all codec cmd all touches
      exact ⟨name, named, isolated_writesAbove name named touches all⟩
    · exact handleInner_all codec cmd
  · intro cmd cmd' different apart apart' isolated isolated' operation operation' makes makes'
      path member path' member' location below
    exact disjoint_of_apart different apart apart' (isolated operation makes path member)
      (isolated' operation' makes' path' member') below

/-! ## The default configuration -/

def deleteCommand (serverId path : String) : CommandPayload where
  commandId := "cmd-1"
  action := .deleteFile
  serverId := serverId
  path := some path

theorem defaultDispatcher_apart (serverId : String) : defaultDispatcher.RootsApart [] serverId := by
  have volumes : (resolve [] defaultDispatcher.volumesRoot).length = 3 := by decide
  have backups : (resolve [] defaultDispatcher.backupsRoot).length = 3 := by decide
  intro name _
  constructor
  · intro inside
    have := inside.length_le
    simp [volumes, backups] at this
  · intro inside
    have := inside.length_le
    simp [volumes, backups] at this

/-- Two servers with ordinary ids delete files of the same name and share nothing. -/
theorem isolatedCommand_ordinary_ids :
    defaultDispatcher.IsolatedCommand unusedCodec [] (deleteCommand "alpha" "world") ∧
    defaultDispatcher.IsolatedCommand unusedCodec [] (deleteCommand "beta" "world") ∧
    ∀ operation operation',
      (defaultDispatcher.handleInner unusedCodec (deleteCommand "alpha" "world")).Makes (.fs operation) →
      (defaultDispatcher.handleInner unusedCodec (deleteCommand "beta" "world")).Makes (.fs operation') →
      ∀ path ∈ operation.paths, ∀ path' ∈ operation'.paths, ∀ location,
        resolve [] path <+: location → ¬ resolve [] path' <+: location := by
  have iff := isolatedCommand_iff defaultDispatcher unusedCodec []
  have alpha := (iff.1 (deleteCommand "alpha" "world")).mpr fun _ =>
    ⟨⟨Text.bytes "alpha", by decide⟩, rfl, fun above => by cases above.1⟩
  have beta := (iff.1 (deleteCommand "beta" "world")).mpr fun _ =>
    ⟨⟨Text.bytes "beta", by decide⟩, rfl, fun above => by cases above.1⟩
  exact ⟨alpha, beta, iff.2 _ _ (by decide) (defaultDispatcher_apart _) (defaultDispatcher_apart _)
    alpha beta⟩

/-- A server id that climbs out of its own directory deletes another server's file. -/
theorem isolatedCommand_climbing_id :
    ¬ defaultDispatcher.IsolatedCommand unusedCodec [] (deleteCommand "alpha/../victim" "world") ∧
    ∃ path, (defaultDispatcher.handleInner unusedCodec
        (deleteCommand "alpha/../victim" "world")).Makes (.fs (.removeFile path)) ∧
      resolve [] path = resolve [] (Text.bytes "/srv/sky-panel/volumes/victim/world") := by
  have makes : (defaultDispatcher.handleInner unusedCodec
      (deleteCommand "alpha/../victim" "world")).Makes (.fs (.removeFile
        (join (join defaultDispatcher.volumesRoot (Text.bytes "alpha/../victim")) (Text.bytes "world")))) :=
    .later (Except.ok ⟨false, true, 0, none⟩) .here
  refine ⟨?_, _, makes, by decide⟩
  intro isolated
  obtain ⟨name, named, -⟩ := isolated _ makes _ List.mem_cons_self
  have plain := name.property
  rw [named] at plain
  exact absurd plain (by decide)

end Dispatcher
end SkyDaemon.Agent
