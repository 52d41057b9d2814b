import SkyDaemon.Agent.Dispatcher

/-! Which calls a command can make, and with what. The handlers are walked once; what a command
leaves alone is read off from that. -/
namespace SkyDaemon.Agent
open Protocol UnixPath Program

/-- The volume of the server. -/
def volumePath (dispatcher : Dispatcher) (serverId : String) : OsPath :=
  join dispatcher.volumesRoot (Text.bytes serverId)

/-- The archive of a backup that read the clock at that second. -/
def archivePath (dispatcher : Dispatcher) (serverId : String) (secs : Nat) : OsPath :=
  join (dispatcher.backupsDir serverId) (Text.bytes (Dispatcher.backupFilename secs))

namespace Dispatcher

section Calls
variable (dispatcher : Dispatcher) (codec : Base64) (cmd : CommandPayload)

/-- What a command asks of the file system after its own checks. -/
inductive FileCall : FsCall → Prop where
  | list (action : cmd.action = .listFiles) (down : descends (Text.bytes (cmd.path.getD "")) = true) :
      FileCall (.readDir (join (volumePath dispatcher cmd.serverId) (Text.bytes (cmd.path.getD ""))))
  | stat (action : cmd.action = .readFile ∨ cmd.action = .deleteFile) (given : cmd.path = some rel)
      (down : descends (Text.bytes rel) = true) :
      FileCall (.metadata (join (volumePath dispatcher cmd.serverId) (Text.bytes rel)))
  | read (action : cmd.action = .readFile) (given : cmd.path = some rel) (down : descends (Text.bytes rel) = true) :
      FileCall (.read (join (volumePath dispatcher cmd.serverId) (Text.bytes rel)))
  | lead (action : cmd.action = .writeFile) (given : cmd.path = some rel) (down : descends (Text.bytes rel) = true)
      (content : cmd.contentBase64.bind codec.decode = some bytes) (small : bytes.length ≤ maxFileBytes)
      (above : parent (join (volumePath dispatcher cmd.serverId) (Text.bytes rel)) = some up) :
      FileCall (.createDirAll up)
  | write (action : cmd.action = .writeFile) (given : cmd.path = some rel) (down : descends (Text.bytes rel) = true)
      (content : cmd.contentBase64.bind codec.decode = some bytes) (small : bytes.length ≤ maxFileBytes) :
      FileCall (.write (join (volumePath dispatcher cmd.serverId) (Text.bytes rel)) bytes)
  | rename (action : cmd.action = .renameFile) (given : cmd.path = some rel)
      (down : descends (Text.bytes rel) = true) (given' : cmd.newPath = some target)
      (down' : descends (Text.bytes target) = true) :
      FileCall (.rename (join (volumePath dispatcher cmd.serverId) (Text.bytes rel))
        (join (volumePath dispatcher cmd.serverId) (Text.bytes target)))
  | removeDir (action : cmd.action = .deleteFile) (given : cmd.path = some rel)
      (down : descends (Text.bytes rel) = true) :
      FileCall (.removeDirAll (join (volumePath dispatcher cmd.serverId) (Text.bytes rel)))
  | remove (action : cmd.action = .deleteFile) (given : cmd.path = some rel)
      (down : descends (Text.bytes rel) = true) :
      FileCall (.removeFile (join (volumePath dispatcher cmd.serverId) (Text.bytes rel)))
  | mkdir (action : cmd.action = .mkdir) (given : cmd.path = some rel) (down : descends (Text.bytes rel) = true) :
      FileCall (.createDirAll (join (volumePath dispatcher cmd.serverId) (Text.bytes rel)))
  | backupsDir (action : cmd.action = .backup) : FileCall (.createDirAll (dispatcher.backupsDir cmd.serverId))
  | look (action : cmd.action = .backup) : FileCall (.isDir (volumePath dispatcher cmd.serverId))
  | create (action : cmd.action = .backup) (secs : Nat) :
      FileCall (.createFile (archivePath dispatcher cmd.serverId secs))
  | append (action : cmd.action = .backup) (secs : Nat) :
      FileCall (.appendDirAll (volumePath dispatcher cmd.serverId) (archivePath dispatcher cmd.serverId secs))
  | sync (action : cmd.action = .backup) (secs : Nat) :
      FileCall (.syncAll (archivePath dispatcher cmd.serverId secs))
  | measure (action : cmd.action = .backup) (secs : Nat) :
      FileCall (.metadata (archivePath dispatcher cmd.serverId secs))
  | listBackups (action : cmd.action = .listBackups) : FileCall (.readDir (dispatcher.backupsDir cmd.serverId))
  | openArchive (action : cmd.action = .restoreBackup) (given : cmd.path = some name)
      (single : components (Text.bytes name) = [.normal file]) :
      FileCall (.openFile (join (dispatcher.backupsDir cmd.serverId) (Text.bytes name)))
  | volume (action : cmd.action = .restoreBackup) (given : cmd.path = some name)
      (single : components (Text.bytes name) = [.normal file]) :
      FileCall (.createDirAll (volumePath dispatcher cmd.serverId))
  | entries (action : cmd.action = .restoreBackup) (given : cmd.path = some name)
      (single : components (Text.bytes name) = [.normal file]) :
      FileCall (.entries (join (dispatcher.backupsDir cmd.serverId) (Text.bytes name)))
  | unpack (action : cmd.action = .restoreBackup) (given : cmd.path = some name)
      (single : components (Text.bytes name) = [.normal file]) {entry : ArchiveEntry}
      (safe : Core.isSafeRelativePath entry.path = true) :
      FileCall (.unpack entry (join (volumePath dispatcher cmd.serverId) entry.path))
  | deleteBackup (action : cmd.action = .deleteBackup) (given : cmd.path = some name)
      (single : components (Text.bytes name) = [.normal file]) :
      FileCall (.removeFile (join (dispatcher.backupsDir cmd.serverId) (Text.bytes name)))

/-- Which commands make a call. -/
def MayCall : Call → Prop
  | .fs operation => dispatcher.FileCall codec cmd operation
  | .runtime (.pull image) => cmd.action = .pullImage ∧ cmd.image = some image
  | .runtime (.create spec) => cmd.action = .create ∧ cmd.spec = some spec
  | .runtime (.start _) | .runtime (.attach _) => cmd.action = .start
  | .runtime (.stop _ _) => cmd.action = .stop
  | .runtime (.kill _) => cmd.action = .kill
  | .runtime (.remove _) => cmd.action = .remove
  | .runtime .listManaged | .runtime (.inspect _) | .runtime (.stats _) | .trackedSnapshot
  | .trackedReconcile _ => False
  | .createDatabase _ _ _ => cmd.action = .createDatabase
  | .deleteDatabase _ _ => cmd.action = .deleteDatabase
  | .now => cmd.action = .backup
  | .trackedGet serverId => serverId = cmd.serverId ∧ cmd.action ∈ [.start, .stop, .kill, .remove]
  | .trackedInsert serverId _ => serverId = cmd.serverId ∧ cmd.action ∈ [.create, .start]
  | .trackedRemove serverId | .consolesRemove serverId => serverId = cmd.serverId ∧ cmd.action = .remove
  | .consolesContains serverId | .consolesInsert serverId _ | .spawnPump serverId _ =>
      serverId = cmd.serverId ∧ cmd.action = .start
  | .consolesGet serverId => serverId = cmd.serverId ∧ cmd.action = .consoleInput
  | .emit event => event.serverId = cmd.serverId ∧ cmd.action ∈ [.pullImage, .start, .stop, .kill, .backup]
  | .lockStdin _ | .writeStdin _ _ | .unlockStdin _ => cmd.action = .consoleInput

end Calls

/-! ## Guards -/

section Guards
variable {dispatcher : Dispatcher} {P : Call → Prop}

theorem all_required_bind {value : Option β} {f : β → Task α} :
    (required message value >>= f).All P ↔ ∀ given, value = some given → (f given).All P := by
  cases value with
  | none => exact ⟨fun _ _ absent => by contradiction, fun _ => trivial⟩
  | some given =>
    simp only [Option.some.injEq, forall_eq']
    exact .rfl

theorem all_resolvePath_bind {rel : String} {f : OsPath → Task α} :
    (ofExcept (dispatcher.resolvePath serverId rel) >>= f).All P ↔
      (descends (Text.bytes rel) = true →
        (f (join (join dispatcher.volumesRoot (Text.bytes serverId)) (Text.bytes rel))).All P) := by
  unfold resolvePath
  dsimp only
  split
  · rename_i down
    exact ⟨fun all _ => all, fun all => all down⟩
  · rename_i up
    exact ⟨fun _ down => absurd down up, fun _ => trivial⟩

theorem all_requiredPath_bind {cmd : CommandPayload} {f : OsPath → Task α} :
    (dispatcher.requiredPath cmd path missing >>= f).All P ↔
      ∀ rel, path = some rel → descends (Text.bytes rel) = true →
        (f (join (join dispatcher.volumesRoot (Text.bytes cmd.serverId)) (Text.bytes rel))).All P := by
  cases path with
  | none => exact ⟨fun _ _ absent => by contradiction, fun _ => trivial⟩
  | some rel =>
    simp only [Option.some.injEq, forall_eq']
    exact all_resolvePath_bind

theorem all_backupPath_bind {name : String} {f : OsPath → Task α} :
    (ofExcept (dispatcher.backupPath serverId name) >>= f).All P ↔
      ∀ file, components (Text.bytes name) = [.normal file] →
        (f (join (dispatcher.backupsDir serverId) (Text.bytes name))).All P := by
  unfold backupPath
  dsimp only
  split
  · rename_i file single
    exact ⟨fun all _ _ => all, fun all => all file single⟩
  · rename_i other
    exact ⟨fun _ file single => absurd single (other file), fun _ => trivial⟩

end Guards

/-! ## Handlers

Each handler makes allowed calls if the calls it is written with are allowed. -/

section Handlers
variable {P : Call → Prop}

@[simp] theorem all_ofIo (result : Except IoError α) : (ofIo result).All P := by
  cases result <;> trivial

/-- An allowed call in front of a program. -/
theorem all_fs_bind {operation : FsCall} {f : operation.Response → Task α} (allowed : P (.fs operation))
    (rest : ∀ answer, (f answer).All P) : (fs operation >>= f).All P :=
  ⟨allowed, rest⟩

theorem listFiles_all (lists : P (.fs (.readDir dir))) : (listFiles dir).All P :=
  all_fs_bind lists fun answer => (all_context _ answer).bind fun _ => all_ofExcept _

theorem readFile_all (codec : Base64) (looks : P (.fs (.metadata path))) (reads : P (.fs (.read path))) :
    (readFile codec path).All P := by
  refine all_fs_bind looks fun answer => (all_context _ answer).bind fun metadata => ?_
  split
  · trivial
  · exact all_fs_bind reads fun answer => (all_context _ answer).bind fun _ => trivial

theorem deletePath_all (looks : P (.fs (.metadata path))) (clears : P (.fs (.removeDirAll path)))
    (removes : P (.fs (.removeFile path))) : (deletePath path).All P := by
  refine all_fs_bind looks fun answer => (all_context _ answer).bind fun metadata => ?_
  split
  · exact all_fs_bind clears fun _ => all_context _ _
  · exact all_fs_bind removes fun _ => all_context _ _

theorem writeFile_all (codec : Base64)
    (reached : ∀ content, codec.decode encoded = some content → content.length ≤ maxFileBytes →
      (∀ up, parent path = some up → P (.fs (.createDirAll up))) ∧ P (.fs (.write path content))) :
    (writeFile codec path encoded).All P := by
  unfold writeFile
  cases decoded : codec.decode encoded with
  | none => trivial
  | some content =>
    by_cases large : content.length > maxFileBytes
    · simp only [required, done_bind, large, if_true]
      trivial
    · obtain ⟨leads, writes⟩ := reached content decoded (Nat.le_of_not_gt large)
      have written : (fs (.write path content) >>= context "write file").All P :=
        all_fs_bind writes fun _ => all_context _ _
      simp only [required, done_bind, large, if_false]
      cases found : parent path with
      | none => exact written
      | some up => exact all_fs_bind (leads up found) fun answer => (all_context _ answer).bind fun _ => written

theorem core_createBackup_all (looks : P (.fs (.isDir srcDir))) (creates : P (.fs (.createFile destPath)))
    (appends : P (.fs (.appendDirAll srcDir destPath))) (syncs : P (.fs (.syncAll destPath)))
    (measures : P (.fs (.metadata destPath))) : (Core.createBackup srcDir destPath).All P := by
  refine all_fs_bind looks fun isDir => ?_
  cases isDir with
  | false => trivial
  | true =>
    refine all_fs_bind creates fun answer => (all_ofIo answer).bind fun _ => ?_
    refine all_fs_bind appends fun answer => (all_ofIo answer).bind fun _ => ?_
    refine all_fs_bind syncs fun answer => (all_ofIo answer).bind fun _ => ?_
    exact all_fs_bind measures fun answer => (all_ofIo answer).bind fun _ => trivial

theorem core_restoreEntries_all (unpacks : ∀ entry : ArchiveEntry, Core.isSafeRelativePath entry.path = true →
      P (.fs (.unpack entry (join destDir entry.path)))) (entries : List (Except IoError ArchiveEntry)) :
    (Core.restoreEntries destDir entries).All P := by
  induction entries with
  | nil => trivial
  | cons result rest ih =>
    refine (all_ofIo result).bind fun entry => ?_
    split
    · rename_i safe
      exact all_fs_bind (unpacks entry safe) fun answer => (all_ofIo answer).bind fun _ => ih
    · exact ih

theorem core_restoreBackup_all (opens : P (.fs (.openFile archive))) (leads : P (.fs (.createDirAll destDir)))
    (reads : P (.fs (.entries archive))) (unpacks : ∀ entry : ArchiveEntry,
      Core.isSafeRelativePath entry.path = true → P (.fs (.unpack entry (join destDir entry.path)))) :
    (Core.restoreBackup archive destDir).All P := by
  refine all_fs_bind opens fun answer => (all_ofIo answer).bind fun _ => ?_
  refine all_fs_bind leads fun answer => (all_ofIo answer).bind fun _ => ?_
  refine all_fs_bind reads fun answer => (all_ofIo answer).bind fun entries => ?_
  exact core_restoreEntries_all unpacks entries

theorem createBackup_all (dispatcher : Dispatcher) (leads : P (.fs (.createDirAll (dispatcher.backupsDir serverId))))
    (asks : P .now) (looks : P (.fs (.isDir (volumePath dispatcher serverId))))
    (fills : ∀ secs, P (.fs (.createFile (archivePath dispatcher serverId secs))) ∧
      P (.fs (.appendDirAll (volumePath dispatcher serverId) (archivePath dispatcher serverId secs))) ∧
      P (.fs (.syncAll (archivePath dispatcher serverId secs))) ∧
      P (.fs (.metadata (archivePath dispatcher serverId secs)))) :
    (dispatcher.createBackup serverId).All P := by
  refine all_fs_bind leads fun answer => (all_context _ answer).bind fun _ => ?_
  refine All.bind ((all_perform _).mpr asks) fun secs => ?_
  obtain ⟨creates, appends, syncs, measures⟩ := fills secs
  exact All.bind ((all_withContext _ _).mpr (core_createBackup_all looks creates appends syncs measures))
    fun _ => trivial

theorem listBackups_all (dispatcher : Dispatcher) (lists : P (.fs (.readDir (dispatcher.backupsDir serverId)))) :
    (dispatcher.listBackups serverId).All P := by
  refine all_fs_bind lists fun answer => ?_
  cases answer with
  | error error =>
    dsimp only
    split <;> trivial
  | ok results => exact (all_ofExcept _).bind fun _ => trivial

theorem containerFor_all (cmd : CommandPayload) (asks : P (.trackedGet cmd.serverId)) : (containerFor cmd).All P := by
  unfold containerFor
  cases cmd.containerId with
  | some id => trivial
  | none => exact ⟨asks, fun _ => all_required _ _⟩

theorem takeOffline_all (cmd : CommandPayload) {halt : String → Task (Except String Unit)}
    (asks : P (.trackedGet cmd.serverId)) (halts : ∀ id, (halt id).All P)
    (tells : P (.emit ⟨cmd.serverId, .stateChanged, "offline"⟩)) : (takeOffline cmd halt).All P := by
  refine (containerFor_all cmd asks).bind fun id => (halts id).bind fun answer => ?_
  exact (all_ofExcept answer).bind fun _ => ⟨tells, fun _ => trivial⟩

theorem startConsoleStream_all (checks : P (.consolesContains serverId)) (attaches : P (.runtime (.attach containerId)))
    (installs : ∀ session, P (.consolesInsert serverId session)) (pumps : ∀ session, P (.spawnPump serverId session)) :
    (startConsoleStream serverId containerId).All P := by
  refine ⟨checks, fun active => ?_⟩
  cases active with
  | true => trivial
  | false =>
    refine ⟨attaches, fun attached => ?_⟩
    cases attached with
    | error message => trivial
    | ok session => exact ⟨installs session, fun _ => ⟨pumps session, fun _ => trivial⟩⟩

theorem writeConsole_all (locks : P (.lockStdin session)) (writes : ∀ bytes, P (.writeStdin session bytes))
    (unlocks : P (.unlockStdin session)) (input : String) : (writeConsole session input).All P := by
  refine ⟨locks, fun _ => ⟨writes _, fun written => ?_⟩⟩
  cases written with
  | error message => exact ⟨unlocks, fun _ => trivial⟩
  | ok _ => exact ⟨writes _, fun result => ⟨unlocks, fun _ => all_ofExcept result⟩⟩

end Handlers

/-! ## Whole commands -/

section Whole
variable (dispatcher : Dispatcher) (codec : Base64) (cmd : CommandPayload)

theorem handleInner_calls : (dispatcher.handleInner codec cmd).All (dispatcher.MayCall codec cmd) := by
  unfold handleInner
  cases action : cmd.action with
  | create =>
    refine All.bind (all_required_bind.mpr fun spec given => ?_) fun _ => trivial
    refine ⟨⟨action, given⟩, fun answer => (all_ofExcept answer).bind fun id => ?_⟩
    exact ⟨⟨rfl, by simp [action]⟩, fun _ => trivial⟩
  | pullImage =>
    refine All.bind (all_required_bind.mpr fun image given => ?_) fun _ => trivial
    refine ⟨⟨rfl, by simp [action]⟩, fun _ => ⟨⟨action, given⟩, fun answer => ?_⟩⟩
    exact (all_ofExcept answer).bind fun _ => ⟨⟨rfl, by simp [action]⟩, fun _ => trivial⟩
  | start =>
    refine All.bind ((containerFor_all cmd ⟨rfl, by simp [action]⟩).bind fun id => ?_) fun _ => trivial
    refine ⟨action, fun answer => (all_ofExcept answer).bind fun _ => ⟨⟨rfl, by simp [action]⟩, fun _ => ?_⟩⟩
    refine ⟨⟨rfl, by simp [action]⟩, fun _ => ?_⟩
    exact startConsoleStream_all ⟨rfl, action⟩ action (fun _ => ⟨rfl, action⟩) fun _ => ⟨rfl, action⟩
  | stop =>
    refine All.bind (takeOffline_all cmd ?_ (fun id => ⟨action, fun _ => trivial⟩) ?_) fun _ => trivial
    · exact ⟨rfl, by simp [action]⟩
    · exact ⟨rfl, by simp [action]⟩
  | kill =>
    refine All.bind (takeOffline_all cmd ?_ (fun id => ⟨action, fun _ => trivial⟩) ?_) fun _ => trivial
    · exact ⟨rfl, by simp [action]⟩
    · exact ⟨rfl, by simp [action]⟩
  | remove =>
    refine All.bind ((containerFor_all cmd ⟨rfl, by simp [action]⟩).bind fun id => ?_) fun _ => trivial
    refine ⟨action, fun answer => (all_ofExcept answer).bind fun _ => ?_⟩
    exact ⟨⟨rfl, action⟩, fun _ => ⟨⟨rfl, action⟩, fun _ => trivial⟩⟩
  | consoleInput =>
    refine All.bind ((all_required _ _).bind fun input => ?_) fun _ => trivial
    refine ⟨⟨rfl, action⟩, fun found => (all_required _ _).bind fun session => ?_⟩
    exact writeConsole_all action (fun _ => action) action input
  | listFiles =>
    refine all_resolvePath_bind.mpr fun down => ?_
    exact (listFiles_all (FileCall.list action down)).bind fun _ => trivial
  | readFile =>
    refine all_requiredPath_bind.mpr fun rel given down => ?_
    exact (readFile_all codec (FileCall.stat (.inl action) given down) (FileCall.read action given down)).bind
      fun _ => trivial
  | writeFile =>
    refine all_requiredPath_bind.mpr fun rel given down => all_required_bind.mpr fun text encoded => ?_
    refine (writeFile_all codec fun bytes decoded small => ?_).bind fun _ => trivial
    have content : cmd.contentBase64.bind codec.decode = some bytes := by rw [encoded, Option.bind_some, decoded]
    exact ⟨fun up above => FileCall.lead action given down content small above,
      FileCall.write action given down content small⟩
  | renameFile =>
    refine all_requiredPath_bind.mpr fun rel given down => ?_
    refine all_requiredPath_bind.mpr fun target given' down' => ?_
    exact all_fs_bind (FileCall.rename action given down given' down') fun answer =>
      (all_context _ answer).bind fun _ => trivial
  | deleteFile =>
    refine all_requiredPath_bind.mpr fun rel given down => ?_
    exact (deletePath_all (FileCall.stat (.inr action) given down) (FileCall.removeDir action given down)
      (FileCall.remove action given down)).bind fun _ => trivial
  | mkdir =>
    refine all_requiredPath_bind.mpr fun rel given down => ?_
    exact all_fs_bind (FileCall.mkdir action given down) fun answer => (all_context _ answer).bind fun _ => trivial
  | backup =>
    refine (createBackup_all dispatcher (FileCall.backupsDir action) action (FileCall.look action) fun secs => ?_).bind
      fun _ => ⟨⟨rfl, by simp [action]⟩, fun _ => trivial⟩
    exact ⟨FileCall.create action secs, FileCall.append action secs, FileCall.sync action secs,
      FileCall.measure action secs⟩
  | listBackups => exact (listBackups_all dispatcher (FileCall.listBackups action)).bind fun _ => trivial
  | restoreBackup =>
    refine all_required_bind.mpr fun name given => ?_
    refine All.bind (all_backupPath_bind.mpr fun file single => (all_withContext _ _).mpr ?_) fun _ => trivial
    exact core_restoreBackup_all (FileCall.openArchive action given single) (FileCall.volume action given single)
      (FileCall.entries action given single) fun _ safe => FileCall.unpack action given single safe
  | deleteBackup =>
    refine all_required_bind.mpr fun name given => ?_
    refine All.bind (all_backupPath_bind.mpr fun file single => ?_) fun _ => trivial
    exact all_fs_bind (FileCall.deleteBackup action given single) fun _ => all_context _ _
  | createDatabase =>
    refine All.bind ((all_required _ _).bind fun address => (all_required _ _).bind fun name => ?_) fun _ => trivial
    refine (all_required _ _).bind fun user => (all_required _ _).bind fun password => ?_
    exact ⟨action, fun answer => (all_ofExcept answer).bind fun _ => trivial⟩
  | deleteDatabase =>
    refine All.bind ((all_required _ _).bind fun _ => (all_required _ _).bind fun name => ?_) fun _ => trivial
    exact (all_required _ _).bind fun user => ⟨action, fun answer => all_ofExcept answer⟩

theorem handle_calls : (dispatcher.handle codec cmd).All (dispatcher.MayCall codec cmd) :=
  ((all_attempt _).mpr (dispatcher.handleInner_calls codec cmd)).bind fun _ => trivial

end Whole

end Dispatcher
end SkyDaemon.Agent
