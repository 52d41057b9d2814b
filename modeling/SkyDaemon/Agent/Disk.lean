import SkyDaemon.Foundation.FileSystem
import SkyDaemon.Foundation.Interpret
import SkyDaemon.Agent.Files

/-! The disk under the file actions and the backups. Paths are resolved lexically from the
daemon's working directory; there are no links. Any operation may fail for reasons of its
own, and one that writes may then have got part of the way. -/
namespace SkyDaemon.Agent
open UnixPath Program

structure FileData where
  content : List UInt8
  /-- In seconds since the epoch, if it is not earlier. -/
  modified : Option Nat
  deriving DecidableEq, Repr

abbrev Disk := FileSystem FileName FileData

/-- The tar and zstd crates: what `append_dir_all` lists under a directory, and the bytes
that stand for such a list. -/
structure Archiver where
  walk : Disk → Location → List ArchiveEntry
  encode : List ArchiveEntry → List UInt8
  decode : List UInt8 → Except IoError (List (Except IoError ArchiveEntry))

def archived : Node FileData → ArchiveNode
  | .directory => .directory
  | .file data => .file data.content
  | .special => .other

/-- The entry stands for the node at that place below the walked directory. -/
structure Records (rel : Location) (node : Node FileData) (entry : ArchiveEntry) : Prop where
  nonempty : entry.path ≠ []
  down : descends entry.path = true
  names : names entry.path = rel
  ends : node.isDirectory = false → endsInName entry.path = true
  same : entry.node = archived node

/-- Directories and regular files only. -/
def Regular (disk : Disk) (root : Location) : Prop := ∀ rel, disk.get (root ++ rel) ≠ some .special

/-- What is assumed of the crates: an archive gives back the entries that were put into it,
and a walk lists everything below the directory once, each directory before its contents. -/
structure Archiver.Faithful (archiver : Archiver) : Prop where
  lossless : ∀ entries, archiver.decode (archiver.encode entries) = .ok (entries.map .ok)
  walks : ∀ disk root, disk.isDir root = true → Regular disk root → ∃ order : List Location,
    order.Nodup ∧ order.Pairwise (fun earlier later => ¬later <+: earlier) ∧
      (∀ rel, rel ∈ order ↔ (disk.get (root ++ rel)).isSome = true) ∧
      List.Forall₂ (fun rel entry => ∃ node, disk.get (root ++ rel) = some node ∧ Records rel node entry)
        order (archiver.walk disk root)

/-- What the surroundings decide in one call. -/
structure DiskChoice where
  /-- The operation fails with this error. -/
  fault : Option IoError
  /-- How many missing directories a failing `create_dir_all` has made. -/
  made : Nat
  /-- What a failing write has left in its file, if it came to that. -/
  left : Option (List UInt8)
  /-- The subtrees that a failing `remove_dir_all` has removed. -/
  gone : List Location
  /-- The modification time of what is written. -/
  time : Option Nat
  /-- The size that a directory reports. -/
  dirSize : Nat
  /-- The answer of everything that is not on the disk. -/
  answer : (call : Call) → call.Response

namespace IoError

def noEntry : IoError := ⟨true, "No such file or directory (os error 2)"⟩
def noDevice : IoError := ⟨false, "No such device or address (os error 6)"⟩
def fileExists : IoError := ⟨false, "File exists (os error 17)"⟩
def notDirectory : IoError := ⟨false, "Not a directory (os error 20)"⟩
def isDirectory : IoError := ⟨false, "Is a directory (os error 21)"⟩
def invalid : IoError := ⟨false, "Invalid argument (os error 22)"⟩
def notEmpty : IoError := ⟨false, "Directory not empty (os error 39)"⟩

end IoError

namespace Disk

/-- Why there is nothing at a location: a file is in the way, or something is missing. -/
def absence (disk : Disk) (location : Location) : IoError :=
  if location.inits.any fun front => (disk.get front).any fun node => !node.isDirectory then .notDirectory
  else .noEntry

def nodeMetadata (dirSize : Nat) (time : Option Nat) : Node FileData → Metadata
  | .directory => ⟨true, false, dirSize, time⟩
  | .file data => ⟨false, true, data.content.length, data.modified⟩
  | .special => ⟨false, false, 0, none⟩

/-! ## Reading -/

def isDirAt (disk : Disk) (choice : DiskChoice) (path : OsPath) (location : Location) : Bool :=
  choice.fault.isNone && path != [] && disk.isDir location

def metadata (disk : Disk) (choice : DiskChoice) (path : OsPath) (location : Location) :
    Except IoError Metadata :=
  match choice.fault, disk.get location with
  | some error, _ => .error error
  | none, none => .error (disk.absence location)
  | none, some node =>
      if path = [] then .error .noEntry
      else if !node.isDirectory && !endsInName path then .error .notDirectory
      else .ok (nodeMetadata choice.dirSize choice.time node)

def readDir (disk : Disk) (choice : DiskChoice) (path : OsPath) (location : Location) :
    Except IoError (List (Except IoError DirEntry)) :=
  match choice.fault, disk.get location with
  | some error, _ => .error error
  | none, none => .error (disk.absence location)
  | none, some .directory =>
      if path = [] then .error .noEntry
      else .ok ((disk.children location).map fun entry =>
        .ok ⟨entry.1.val, .ok (nodeMetadata choice.dirSize choice.time entry.2)⟩)
  | none, some _ => .error .notDirectory

/-- A directory can be opened too; reading from it is what fails. -/
def openFile (disk : Disk) (choice : DiskChoice) (path : OsPath) (location : Location) : Except IoError Unit :=
  match choice.fault, disk.get location with
  | some error, _ => .error error
  | none, none => .error (disk.absence location)
  | none, some .directory => .ok ()
  | none, some (.file _) => if endsInName path then .ok () else .error .notDirectory
  | none, some .special => .error .noDevice

def read (disk : Disk) (choice : DiskChoice) (path : OsPath) (location : Location) :
    Except IoError (List UInt8) :=
  match choice.fault, disk.get location with
  | some error, _ => .error error
  | none, none => .error (disk.absence location)
  | none, some .directory => .error .isDirectory
  | none, some (.file data) => if endsInName path then .ok data.content else .error .notDirectory
  | none, some .special => .error .noDevice

/-- An archive that was removed is still open, and what is read from it is not determined. -/
def entries (archiver : Archiver) (disk : Disk) (choice : DiskChoice) (archive : OsPath)
    (location : Location) : Except IoError (List (Except IoError ArchiveEntry)) :=
  match choice.fault, disk.get location with
  | some error, _ => .error error
  | none, some (.file data) => archiver.decode data.content
  | none, some .directory => .ok [.error .isDirectory]
  | none, _ => choice.answer (.fs (.entries archive))

/-! ## Writing -/

def createDirAll (disk : Disk) (choice : DiskChoice) (path : OsPath) (location : Location) :
    Except IoError Unit × Disk :=
  if path = [] then (.ok (), disk)
  else match choice.fault with
  | some error => (.error error, (disk.makeDirs [] location choice.made).2)
  | none =>
      match disk.makeDirs [] location location.length with
      | (true, after) => (.ok (), after)
      | (false, after) => (.error (if (disk.get location).isSome then .fileExists else .notDirectory), after)

/-- A regular file with its new data, made or overwritten. -/
def store (disk : Disk) (path : OsPath) (location : Location) (data : FileData) :
    Except IoError Unit × Disk :=
  if !endsInName path then (.error .isDirectory, disk)
  else match disk.get location with
  | some .directory => (.error .isDirectory, disk)
  | some .special => (.error .noDevice, disk)
  | _ =>
      if disk.isDir location.dropLast then (.ok (), disk.put location (.file data))
      else (.error (disk.absence location), disk)

def createFile (disk : Disk) (choice : DiskChoice) (path : OsPath) (location : Location) :
    Except IoError Unit × Disk :=
  match choice.fault with
  | some error => (.error error, disk)
  | none => disk.store path location ⟨[], choice.time⟩

def write (disk : Disk) (choice : DiskChoice) (path : OsPath) (location : Location)
    (content : List UInt8) : Except IoError Unit × Disk :=
  match choice.fault, choice.left with
  | none, _ => disk.store path location ⟨content, choice.time⟩
  | some error, none => (.error error, disk)
  | some error, some left => (.error error, (disk.store path location ⟨left, choice.time⟩).2)

/-- The archive is written through its open file; if that was removed, nothing shows. -/
def appendDirAll (archiver : Archiver) (disk : Disk) (choice : DiskChoice) (source archive : OsPath)
    (volume location : Location) : Except IoError Unit × Disk :=
  match disk.get location with
  | some (.file _) =>
      if choice.fault.isNone && source != [] && disk.isDir volume then
        (.ok (), disk.put location (.file ⟨archiver.encode (archiver.walk disk volume), choice.time⟩))
      else
        (.error (choice.fault.getD (disk.absence volume)), match choice.left with
          | some left => disk.put location (.file ⟨left, choice.time⟩)
          | none => disk)
  | _ => (choice.answer (.fs (.appendDirAll source archive)), disk)

/-- `Entry::unpack`: a directory is made if absent, a file is made or replaced. -/
def place (disk : Disk) (path : OsPath) (location : Location) (time : Option Nat) (node : ArchiveNode) :
    Except IoError Unit × Disk :=
  match node, disk.get location with
  | .directory, some .directory => (.ok (), disk)
  | .directory, some _ => (.error .fileExists, disk)
  | .directory, none => settle .directory
  | .file _, some .directory | .other, some .directory => (.error .isDirectory, disk)
  | .file content, _ =>
      if endsInName path then settle (.file ⟨content, time⟩) else (.error .isDirectory, disk)
  | .other, _ => settle .special
where
  settle (node : Node FileData) : Except IoError Unit × Disk :=
    if disk.isDir location.dropLast then (.ok (), disk.put location node)
    else (.error (disk.absence location), disk)

def unpack (disk : Disk) (choice : DiskChoice) (path : OsPath) (location : Location) (node : ArchiveNode) :
    Except IoError Unit × Disk :=
  match choice.fault, node, choice.left with
  | none, _, _ => disk.place path location choice.time node
  | some error, .file _, some left => (.error error, (disk.place path location choice.time (.file left)).2)
  | some error, _, _ => (.error error, disk)

def removeFile (disk : Disk) (choice : DiskChoice) (path : OsPath) (location : Location) :
    Except IoError Unit × Disk :=
  match choice.fault, disk.get location with
  | some error, _ => (.error error, disk)
  | none, none => (.error (disk.absence location), disk)
  | none, some .directory => (.error .isDirectory, disk)
  | none, some _ => if endsInName path then (.ok (), disk.remove location) else (.error .notDirectory, disk)

def removeDirAll (disk : Disk) (choice : DiskChoice) (path : OsPath) (location : Location) :
    Except IoError Unit × Disk :=
  match choice.fault, disk.get location with
  | some error, _ =>
      (.error error, choice.gone.foldl (fun disk part => if location <+: part then disk.remove part else disk) disk)
  | none, none => (.error (disk.absence location), disk)
  | none, some .directory =>
      if path = [] ∨ location = [] then (.error .invalid, disk) else (.ok (), disk.remove location)
  | none, some _ => (.error .notDirectory, disk)

def rename (disk : Disk) (choice : DiskChoice) (source target : OsPath) (old new : Location) :
    Except IoError Unit × Disk :=
  match choice.fault, disk.get old, disk.get new with
  | some error, _, _ => (.error error, disk)
  | none, none, _ => (.error (disk.absence old), disk)
  | none, some node, there =>
      if source = [] ∨ target = [] then (.error .noEntry, disk)
      else if !node.isDirectory && !(endsInName source && endsInName target) then (.error .notDirectory, disk)
      else if old = new then (.ok (), disk)
      else if old <+: new then (.error .invalid, disk)
      else if there.any fun other => node.isDirectory && !other.isDirectory then (.error .notDirectory, disk)
      else if there.any fun other => !node.isDirectory && other.isDirectory then (.error .isDirectory, disk)
      else if !(disk.children new).isEmpty then (.error .notEmpty, disk)
      else if disk.Movable old new then (.ok (), disk.move old new)
      else (.error (if disk.isDir new.dropLast then .invalid else disk.absence new), disk)

variable (archiver : Archiver) (cwd : Location)

def perform (disk : Disk) (choice : DiskChoice) : (call : FsCall) → call.Response × Disk
  | .createDirAll path => disk.createDirAll choice path (resolve cwd path)
  | .readDir path => (disk.readDir choice path (resolve cwd path), disk)
  | .metadata path => (disk.metadata choice path (resolve cwd path), disk)
  | .read path => (disk.read choice path (resolve cwd path), disk)
  | .write path content => disk.write choice path (resolve cwd path) content
  | .rename source target => disk.rename choice source target (resolve cwd source) (resolve cwd target)
  | .removeDirAll path => disk.removeDirAll choice path (resolve cwd path)
  | .removeFile path => disk.removeFile choice path (resolve cwd path)
  | .isDir path => (disk.isDirAt choice path (resolve cwd path), disk)
  | .createFile path => disk.createFile choice path (resolve cwd path)
  | .appendDirAll source archive =>
      disk.appendDirAll archiver choice source archive (resolve cwd source) (resolve cwd archive)
  | .syncAll _ => (match choice.fault with | some error => .error error | none => .ok (), disk)
  | .openFile path => (disk.openFile choice path (resolve cwd path), disk)
  | .entries archive => (disk.entries archiver choice archive (resolve cwd archive), disk)
  | .unpack entry path => disk.unpack choice path (resolve cwd path) entry.node

def react (disk : Disk) (choice : DiskChoice) : (call : Call) → call.Response × Disk
  | .fs operation => disk.perform archiver cwd choice operation
  | other => (choice.answer other, disk)

/-! ## What an operation leaves alone -/

/-- Everything but one location is as it was. -/
def Only (disk : Disk) (location : Location) (after : Disk) : Prop :=
  ∀ other, other ≠ location → after.get other = disk.get other

theorem Only.refl (disk : Disk) (location : Location) : disk.Only location disk := fun _ _ => rfl

theorem Only.put (disk : Disk) (location : Location) (node : Node FileData) :
    disk.Only location (disk.put location node) := fun _ away => disk.get_put_ne node away

theorem Only.trans {first second third : Disk} (one : first.Only location second)
    (two : second.Only location third) : first.Only location third :=
  fun other away => (two other away).trans (one other away)

theorem absence_of_isDir {disk : Disk} (inside : disk.isDir location = true) :
    disk.absence location = .noEntry := by
  apply if_neg
  rw [List.any_eq_true]
  rintro ⟨front, member, inTheWay⟩
  obtain ⟨rest, rfl⟩ := (List.mem_inits _ _).mp member
  have directory : disk.isDir front = true := by
    by_cases whole : rest = []
    · rwa [whole, List.append_nil] at inside
    · exact disk.isDir_above (by rw [FileSystem.isDir_iff.mp inside]; rfl) whole
  rw [FileSystem.isDir_iff.mp directory] at inTheWay
  contradiction

theorem metadata_absent {disk : Disk} (choice : DiskChoice) (path : OsPath) (absent : disk.get location = none) :
    ∃ error, disk.metadata choice path location = .error error := by
  unfold metadata
  rw [absent]
  cases choice.fault with
  | none => exact ⟨_, rfl⟩
  | some error => exact ⟨_, rfl⟩

theorem createDirAll_leads (disk : Disk) (choice : DiskChoice) (path : OsPath) (location : Location) :
    disk.Leads location (disk.createDirAll choice path location).2 := by
  have root : disk.isDir [] = true := FileSystem.isDir_iff.mpr disk.get_root
  unfold createDirAll
  split
  · exact .refl _ _
  · split
    · exact (FileSystem.makeDirs_leads root location choice.made).1
    · have leads := (FileSystem.makeDirs_leads root location location.length).1
      split <;> (rename_i made; rw [List.nil_append, made] at leads; exact leads)

theorem store_cases (disk : Disk) (path : OsPath) (location : Location) (data : FileData) :
    (∃ error, disk.store path location data = (.error error, disk)) ∨
      disk.Fits location (.file data) ∧ endsInName path = true ∧
        disk.store path location data = (.ok (), disk.put location (.file data)) := by
  unfold store
  split
  · exact .inl ⟨_, rfl⟩
  · rename_i named
    split
    · exact .inl ⟨_, rfl⟩
    · exact .inl ⟨_, rfl⟩
    · rename_i other _
      split
      · rename_i inside
        have leaf : disk.isDir location = false := by
          rw [← Bool.not_eq_true, FileSystem.isDir_iff]
          exact other
        refine .inr ⟨⟨?_, inside, .inr leaf⟩, by simpa using named, rfl⟩
        rintro rfl
        exact other disk.get_root
      · exact .inl ⟨_, rfl⟩

theorem createFile_cases (disk : Disk) (choice : DiskChoice) (path : OsPath) (location : Location) :
    (∃ error, disk.createFile choice path location = (.error error, disk)) ∨
      disk.Fits location (.file ⟨[], choice.time⟩) ∧ endsInName path = true ∧
        disk.createFile choice path location = (.ok (), disk.put location (.file ⟨[], choice.time⟩)) := by
  unfold createFile
  split
  · exact .inl ⟨_, rfl⟩
  · exact disk.store_cases path location ⟨[], choice.time⟩

/-- A regular file can be replaced by another. -/
theorem fits_file {disk : Disk} (present : disk.get location = some (.file old)) (data : FileData) :
    disk.Fits location (.file data) := by
  have leaf : disk.isDir location = false := by
    rw [← Bool.not_eq_true, FileSystem.isDir_iff, present]
    simp
  rcases List.eq_nil_or_concat location with rfl | ⟨front, last, rfl⟩
  · rw [disk.get_root] at present
    cases present
  · rw [List.concat_eq_append] at present leaf ⊢
    refine ⟨by simp, ?_, .inr leaf⟩
    rw [List.dropLast_concat]
    exact disk.isDir_above (by rw [present]; rfl) (by simp)

/-- An archive that is there is written whole, or the call fails. -/
theorem appendDirAll_cases {disk : Disk} (choice : DiskChoice) (source archive : OsPath) (volume : Location)
    (present : disk.get location = some (.file data)) :
    (∃ error after, disk.appendDirAll archiver choice source archive volume location = (.error error, after)) ∨
      disk.appendDirAll archiver choice source archive volume location =
        (.ok (), disk.put location (.file ⟨archiver.encode (archiver.walk disk volume), choice.time⟩)) := by
  unfold appendDirAll
  rw [present]
  dsimp only
  split
  · exact .inr rfl
  · exact .inl ⟨_, _, rfl⟩

/-- Writing the archive changes its own file alone, which stays a file. -/
theorem appendDirAll_only (disk : Disk) (choice : DiskChoice) (source archive : OsPath)
    (volume location : Location) :
    disk.Only location (disk.appendDirAll archiver choice source archive volume location).2 ∧
      (∀ data, disk.get location = some (.file data) →
        ∃ data', (disk.appendDirAll archiver choice source archive volume location).2.get location =
          some (.file data')) := by
  unfold appendDirAll
  split
  · rename_i data present
    have written (data' : FileData) := FileSystem.get_put_self (fits_file present data')
    split
    · exact ⟨.put _ _ _, fun _ _ => ⟨_, written _⟩⟩
    · split
      · exact ⟨.put _ _ _, fun _ _ => ⟨_, written _⟩⟩
      · exact ⟨.refl _ _, fun _ _ => ⟨_, present⟩⟩
  · rename_i absent
    exact ⟨.refl _ _, fun data present => absurd present (absent data)⟩

theorem unpack_only (disk : Disk) (choice : DiskChoice) (path : OsPath) (location : Location) (node : ArchiveNode) :
    disk.Only location (disk.unpack choice path location node).2 := by
  have settle (node : Node FileData) : disk.Only location (place.settle disk location node).2 := by
    unfold place.settle
    split
    · exact .put _ _ _
    · exact .refl _ _
  have place (node : ArchiveNode) : disk.Only location (disk.place path location choice.time node).2 := by
    unfold Disk.place
    split
    · exact .refl _ _
    · exact .refl _ _
    · exact settle _
    · exact .refl _ _
    · exact .refl _ _
    · split
      · exact settle _
      · exact .refl _ _
    · exact settle _
  unfold unpack
  split
  · exact place _
  · exact place _
  · exact .refl _ _

/-- A file is removed, or nothing. -/
theorem removeFile_cases (disk : Disk) (choice : DiskChoice) (path : OsPath) (location : Location) :
    (∃ error, disk.removeFile choice path location = (.error error, disk)) ∨
      ∃ after, disk.removeFile choice path location = (.ok (), after) ∧ disk.Only location after ∧
        after.get location = none := by
  unfold removeFile
  split
  · exact .inl ⟨_, rfl⟩
  · exact .inl ⟨_, rfl⟩
  · exact .inl ⟨_, rfl⟩
  · rename_i other _ present
    split
    · have leaf : disk.isDir location = false := by
        rw [← Bool.not_eq_true, FileSystem.isDir_iff, present]
        exact fun same => other (Option.some.inj same)
      have nonroot : location ≠ [] := by
        rintro rfl
        rw [FileSystem.isDir_iff.mpr disk.get_root] at leaf
        contradiction
      refine .inr ⟨_, rfl, fun away different => ?_, ?_⟩
      · rw [FileSystem.get_remove _ nonroot]
        split
        · rename_i inside
          obtain ⟨rest, rfl⟩ := inside
          exact (FileSystem.get_below_leaf leaf fun empty => different (by rw [empty, List.append_nil])).symm
        · rfl
      · rw [FileSystem.get_remove _ nonroot, if_pos List.prefix_rfl]
    · exact .inl ⟨_, rfl⟩

end Disk

/-- The call may change what stands at the location. -/
def Call.Touches (cwd location : Location) : Call → Prop
  | .fs (.createFile path) | .fs (.appendDirAll _ path) | .fs (.unpack _ path) | .fs (.removeFile path) =>
      resolve cwd path = location
  | .fs (.createDirAll path) => location <+: resolve cwd path
  | .fs (.write _ _) | .fs (.rename _ _) | .fs (.removeDirAll _) => True
  | _ => False

theorem Disk.react_untouched {cwd location : Location} {call : Call} (archiver : Archiver) (disk : Disk)
    (choice : DiskChoice) (away : ¬call.Touches cwd location) :
    (disk.react archiver cwd choice call).2.get location = disk.get location := by
  cases call with
  | fs operation =>
    cases operation with
    | createFile path =>
      have only : disk.Only (resolve cwd path) (disk.createFile choice path (resolve cwd path)).2 := by
        rcases disk.createFile_cases choice path (resolve cwd path) with ⟨error, refused⟩ | ⟨-, -, created⟩
        · rw [refused]
          exact .refl _ _
        · rw [created]
          exact .put _ _ _
      exact only location (Ne.symm away)
    | appendDirAll source archive =>
      exact (disk.appendDirAll_only archiver choice source archive _ (resolve cwd archive)).1 location (Ne.symm away)
    | unpack entry path => exact disk.unpack_only choice path (resolve cwd path) entry.node location (Ne.symm away)
    | removeFile path =>
      rcases disk.removeFile_cases choice path (resolve cwd path) with ⟨error, refused⟩ | ⟨after, removed, only, -⟩
      · exact congrArg (fun result => result.2.get location) refused
      · exact (congrArg (fun result => result.2.get location) removed).trans (only location (Ne.symm away))
    | createDirAll path =>
      exact (disk.createDirAll_leads choice path (resolve cwd path) location).resolve_right fun ⟨_, _, on⟩ => away on
    | write path content => exact absurd trivial away
    | rename source target => exact absurd trivial away
    | removeDirAll path => exact absurd trivial away
    | _ => rfl
  | _ => rfl

end SkyDaemon.Agent
