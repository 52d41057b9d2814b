import SkyDaemon.Foundation.Text
import SkyDaemon.Agent.Calls

/-! The file manager and the backups: the path guards of the dispatcher, the file
actions, and `skyperf_core::backup`. -/
namespace SkyDaemon.Agent
open Protocol UnixPath Program

/-- `MAX_FILE_BYTES`: ten mebibytes. -/
def maxFileBytes : Nat := 10 * 1024 * 1024

/-- The standard base64 engine. -/
structure Base64 where
  decode : String → Option (List UInt8)
  encode : List UInt8 → String

/-- An I/O error passed on by `?`. -/
def ofIo : Except IoError α → Task α
  | .ok value => .done value
  | .error error => .fail error.message

/-! ## skyperf_core::backup -/

namespace Core

def createBackup (srcDir destPath : OsPath) : Task Nat := do
  let isDir ← fs (.isDir srcDir)
  if !isDir then fail ("source directory not found: " ++ Text.lossy srcDir)
  else
    ofIo (← fs (.createFile destPath))
    ofIo (← fs (.appendDirAll srcDir destPath))
    ofIo (← fs (.syncAll destPath))
    let metadata ← ofIo (← fs (.metadata destPath))
    pure metadata.len

/-- Relative, not empty, and without `..`. -/
def isSafeRelativePath (path : OsPath) : Bool := path != [] && descends path

/-- Unsafe entries are skipped; any failure ends the loop. -/
def restoreEntries (destDir : OsPath) : List (Except IoError ArchiveEntry) → Task Unit
  | [] => pure ()
  | result :: rest => do
      let entry ← ofIo result
      if isSafeRelativePath entry.path then
        ofIo (← fs (.unpack entry (join destDir entry.path)))
        restoreEntries destDir rest
      else restoreEntries destDir rest

def restoreBackup (archivePath destDir : OsPath) : Task Unit := do
  ofIo (← fs (.openFile archivePath))
  ofIo (← fs (.createDirAll destDir))
  let entries ← ofIo (← fs (.entries archivePath))
  restoreEntries destDir entries

end Core

/-! ## File actions -/

def fileEntry (result : Except IoError DirEntry) : Except String FileEntry := do
  let entry ← result.mapError fun _ => "read directory entry"
  let metadata ← entry.metadata.mapError fun _ => "read entry metadata"
  pure ⟨Text.lossy entry.fileName, metadata.isDir, metadata.len⟩

def listFiles (dir : OsPath) : Task (List FileEntry) := do
  let entries ← context "list files" (← fs (.readDir dir))
  ofExcept (entries.mapM fileEntry)

def tooLarge (size : Nat) : String :=
  "file is too large for the command channel (" ++ toString size ++ " bytes, max " ++
    toString maxFileBytes ++ ")"

def readFile (codec : Base64) (path : OsPath) : Task ActionResult := do
  let metadata ← context "stat file" (← fs (.metadata path))
  if metadata.len > maxFileBytes then fail (tooLarge metadata.len)
  else
    let content ← context "read file" (← fs (.read path))
    pure (.readFile (codec.encode content) content.length)

def writeFile (codec : Base64) (path : OsPath) (contentBase64 : String) : Task Unit := do
  let content ← required "decode base64 content" (codec.decode contentBase64)
  if content.length > maxFileBytes then fail (tooLarge content.length)
  else
    match parent path with
    | some up => context "create parent directory" (← fs (.createDirAll up))
    | none => pure ()
    context "write file" (← fs (.write path content))

def deletePath (path : OsPath) : Task Unit := do
  let metadata ← context "stat path" (← fs (.metadata path))
  if metadata.isDir then context "delete directory" (← fs (.removeDirAll path))
  else context "delete file" (← fs (.removeFile path))

/-! ## The dispatcher's directories -/

structure Dispatcher where
  volumesRoot : OsPath
  backupsRoot : OsPath
  /-- The public address of the database server, where one is configured. -/
  db : Option (String × Nat)

namespace Dispatcher

def resolvePath (dispatcher : Dispatcher) (serverId rel : String) : Except String OsPath :=
  let relPath := Text.bytes rel
  if descends relPath then .ok (join (join dispatcher.volumesRoot (Text.bytes serverId)) relPath)
  else .error ("path escapes the server volume: " ++ rel)

def backupsDir (dispatcher : Dispatcher) (serverId : String) : OsPath :=
  join dispatcher.backupsRoot (Text.bytes serverId)

def backupPath (dispatcher : Dispatcher) (serverId name : String) : Except String OsPath :=
  let candidate := Text.bytes name
  match components candidate with
  | [.normal _] => .ok (join (dispatcher.backupsDir serverId) candidate)
  | _ => .error ("invalid backup name: " ++ name)

def backupFilename (secs : Nat) : String := "backup-" ++ toString secs ++ ".tar.zst"

def createBackup (dispatcher : Dispatcher) (serverId : String) : Task (String × Nat) := do
  let src := join dispatcher.volumesRoot (Text.bytes serverId)
  let dir := dispatcher.backupsDir serverId
  context "create backups directory" (← fs (.createDirAll dir))
  let secs ← perform Call.now
  let filename := backupFilename secs
  let dest := join dir (Text.bytes filename)
  let sizeBytes ← (Core.createBackup src dest).withContext "create backup archive"
  pure (filename, sizeBytes)

/-- What is not a regular file is passed over. -/
def backupEntry (result : Except IoError DirEntry) : Except String (Option BackupEntry) := do
  let entry ← result.mapError fun _ => "read backup entry"
  let metadata ← entry.metadata.mapError fun _ => "stat backup"
  pure (if metadata.isFile then
    some ⟨Text.lossy entry.fileName, metadata.len, metadata.modified.getD 0⟩
  else none)

def listBackups (dispatcher : Dispatcher) (serverId : String) : Task (List BackupEntry) := do
  match ← fs (.readDir (dispatcher.backupsDir serverId)) with
  | .error error => if error.notFound then pure [] else fail "list backups"
  | .ok results =>
      let found ← ofExcept (results.mapM backupEntry)
      -- newest first; the sort is stable
      pure ((found.filterMap id).mergeSort fun a b => decide (b.createdAt ≤ a.createdAt))

def restoreBackup (dispatcher : Dispatcher) (serverId name : String) : Task Unit := do
  let archive ← ofExcept (dispatcher.backupPath serverId name)
  let dest := join dispatcher.volumesRoot (Text.bytes serverId)
  (Core.restoreBackup archive dest).withContext "restore backup archive"

def deleteBackup (dispatcher : Dispatcher) (serverId name : String) : Task Unit := do
  let archive ← ofExcept (dispatcher.backupPath serverId name)
  context "delete backup archive" (← fs (.removeFile archive))

/-! ## The path guards on text -/

theorem pieces_bytes (rel : String) : pieces (Text.bytes rel) =
    (rel.toList.splitOn '/').map fun piece => Text.bytes (String.ofList piece) := by
  simp only [Text.bytes_eq, String.toList_ofList]
  exact Text.splitOn_bytes (c := '/') (by decide) rel.toList

theorem hasRoot_bytes (rel : String) :
    hasRoot (Text.bytes rel) = false ↔ rel.toList.head? ≠ some '/' := by
  rw [Text.bytes_eq, hasRoot, beq_eq_false_iff_ne]
  cases rel.toList with
  | nil => simp
  | cons first rest =>
    have nonempty : String.utf8EncodeChar first ≠ [] := String.utf8EncodeChar_ne_nil
    obtain ⟨byte, others, split⟩ := List.exists_cons_of_ne_nil nonempty
    have slashOnly := Text.mem_utf8EncodeChar (c := '/') (d := first) (by decide)
    rw [List.flatMap_cons, split, List.cons_append, List.head?_cons, List.head?_cons]
    simp only [ne_eq, Option.some.injEq, not_iff_not]
    constructor
    · rintro rfl
      rw [split] at slashOnly
      exact (slashOnly.mp List.mem_cons_self).symm
    · rintro rfl
      rw [Text.utf8EncodeChar_ascii (by decide)] at split
      exact (List.cons.inj split).1.symm

theorem bytes_ofList_injective : Function.Injective fun piece => Text.bytes (String.ofList piece) := by
  intro first second same
  exact String.ofList_injective (Text.bytes_injective same)

theorem descends_bytes (rel : String) : descends (Text.bytes rel) = true ↔
    rel.toList.head? ≠ some '/' ∧ ['.', '.'] ∉ rel.toList.splitOn '/' := by
  have up : Text.bytes (String.ofList ['.', '.']) = [dot, dot] := by decide
  rw [descends_iff_pieces, hasRoot_bytes, pieces_bytes, ← up]
  rw [List.mem_map_of_injective bytes_ofList_injective]

theorem skipped_bytes (piece : List Char) :
    skipped (Text.bytes (String.ofList piece)) = decide (piece = [] ∨ piece = ['.']) := by
  have empty : Text.bytes (String.ofList []) = [] := by decide
  have here : Text.bytes (String.ofList ['.']) = [dot] := by decide
  rw [Bool.eq_iff_iff, skipped, ← here, ← empty]
  simp only [Bool.or_eq_true, beq_iff_eq, decide_eq_true_eq]
  exact or_congr bytes_ofList_injective.eq_iff bytes_ofList_injective.eq_iff

theorem resolvePath_ok_iff (dispatcher : Dispatcher) (serverId rel : String) :
    (∃ path, dispatcher.resolvePath serverId rel = .ok path) ↔ descends (Text.bytes rel) = true := by
  cases down : descends (Text.bytes rel) <;> simp [resolvePath, down]

/-- The names of an accepted path are its pieces but the empty ones and `.`. -/
theorem names_bytes (down : descends (Text.bytes rel) = true) :
    (names (Text.bytes rel)).map Subtype.val = ((rel.toList.splitOn '/').filter fun piece =>
      piece ≠ [] ∧ piece ≠ ['.']).map (fun piece => Text.bytes (String.ofList piece)) := by
  rw [descends_names down, pieces_bytes, List.filter_map]
  congr 2
  funext piece
  simp [skipped_bytes]

/-- Both lexical guards let a path through exactly when it is relative and has no `..`; what is
let through adds its own names behind any base directory. -/
theorem path_guards_exact (dispatcher : Dispatcher) (serverId rel : String) {base : OsPath}
    (directory : base ≠ []) :
    ((∃ path, dispatcher.resolvePath serverId rel = .ok path) ↔
      rel.toList.head? ≠ some '/' ∧ ['.', '.'] ∉ rel.toList.splitOn '/') ∧
    (rel ≠ "" → (Core.isSafeRelativePath (Text.bytes rel) = true ↔
      ∃ path, dispatcher.resolvePath serverId rel = .ok path)) ∧
    (∀ path : OsPath, path ≠ [] → (Core.isSafeRelativePath path = true ↔
      path.head? ≠ some slash ∧ [dot, dot] ∉ path.splitOn slash)) ∧
    ∀ path, dispatcher.resolvePath serverId rel = .ok path →
      path = join (join dispatcher.volumesRoot (Text.bytes serverId)) (Text.bytes rel) ∧
      ∃ added : List FileName,
        added.map Subtype.val = ((rel.toList.splitOn '/').filter fun piece =>
          piece ≠ [] ∧ piece ≠ ['.']).map (fun piece => Text.bytes (String.ofList piece)) ∧
        components (join base (Text.bytes rel)) = components base ++ added.map .normal ∧
        ∀ cwd, resolve cwd (join base (Text.bytes rel)) = resolve cwd base ++ added := by
  refine ⟨?_, ?_, ?_, ?_⟩
  · rw [resolvePath_ok_iff, descends_bytes]
  · intro nonempty
    have present : Text.bytes rel ≠ [] := fun empty => nonempty (Text.bytes_injective empty)
    rw [resolvePath_ok_iff, Core.isSafeRelativePath, bne_iff_ne.mpr present, Bool.true_and]
  · intro path nonempty
    rw [Core.isSafeRelativePath, bne_iff_ne.mpr nonempty, Bool.true_and, descends_iff_pieces, hasRoot,
      beq_eq_false_iff_ne]
    rfl
  · intro path accepted
    have down := (resolvePath_ok_iff dispatcher serverId rel).mp ⟨path, accepted⟩
    rw [resolvePath, if_pos down] at accepted
    refine ⟨(Except.ok.inj accepted).symm, names (Text.bytes rel), ?_, ?_, ?_⟩
    · exact names_bytes down
    · rw [components_join (descends_relative down) directory, descends_pieces down]
    · intro cwd
      rw [resolve_join, resolve_descends down]

/-- A name, a dot and a name below `/v`. -/
theorem path_guards_inner_dot : ∃ added : List FileName,
    added.map Subtype.val = [[97], [98]] ∧
    components (join [slash, 118] (Text.bytes "a/./b")) = components [slash, 118] ++ added.map .normal := by
  have guards := path_guards_exact ⟨[slash], [], none⟩ "s" "a/./b"
    (show ([slash, 118] : OsPath) ≠ [] by decide)
  obtain ⟨-, added, text, joined, -⟩ := guards.2.2.2 _ rfl
  exact ⟨added, text.trans (by decide), joined⟩

end Dispatcher
end SkyDaemon.Agent
