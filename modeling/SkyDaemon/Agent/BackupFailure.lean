import SkyDaemon.Agent.Isolation
import SkyDaemon.Agent.PlainArchive

/-! What a failed backup leaves behind. The archive's file is made before the volume is
walked, and no failure after that removes it, so the listing shows it. -/
namespace SkyDaemon.Agent
open Protocol UnixPath Program

abbrev DiskCourse := Course Disk DiskChoice Call Call.Response

variable (archiver : Archiver) (cwd : Location)

/-! ## The listing -/

/-- How a directory entry is listed, if it is a regular file. -/
def listedAs (name : FileName) : Node FileData → Option BackupEntry
  | .file data => some ⟨Text.lossy name.val, data.content.length, data.modified.getD 0⟩
  | _ => none

def listedIn (disk : Disk) (location : Location) : List BackupEntry :=
  (disk.children location).filterMap fun entry => listedAs entry.1 entry.2

def newestFirst (entries : List BackupEntry) : List BackupEntry :=
  entries.mergeSort fun a b => decide (b.createdAt ≤ a.createdAt)

/-- The answer of `list_backups` when nothing fails. -/
def listing (disk : Disk) (path : OsPath) (location : Location) : Except String (List BackupEntry) :=
  match disk.get location with
  | none => if (disk.absence location).notFound then .ok [] else .error "list backups"
  | some .directory => if path = [] then .ok [] else .ok (newestFirst (listedIn disk location))
  | some _ => .error "list backups"

theorem mapM_backupEntry (entries : List (FileName × Node FileData)) (dirSize : Nat) (time : Option Nat) :
    (entries.map fun entry => (.ok ⟨entry.1.val, .ok (Disk.nodeMetadata dirSize time entry.2)⟩ :
      Except IoError DirEntry)).mapM Dispatcher.backupEntry =
    .ok (entries.map fun entry => listedAs entry.1 entry.2) := by
  induction entries with
  | nil => rfl
  | cons entry rest ih =>
    have first : Dispatcher.backupEntry (.ok ⟨entry.1.val, .ok (Disk.nodeMetadata dirSize time entry.2)⟩) =
        .ok (listedAs entry.1 entry.2) := by
      obtain ⟨name, node⟩ := entry
      cases node <;> rfl
    rw [List.map_cons, List.mapM_cons, first, ih]
    rfl

theorem listBackups_run {dispatcher : Dispatcher} {course : DiskCourse} (calm : (course.coming 0).fault = none) :
    ((dispatcher.listBackups serverId).execute (Disk.react archiver cwd) course).1 =
      listing course.world (dispatcher.backupsDir serverId) (resolve cwd (dispatcher.backupsDir serverId)) := by
  have answered : course.answer (Disk.react archiver cwd) (.fs (.readDir (dispatcher.backupsDir serverId))) =
      course.world.readDir (course.coming 0) (dispatcher.backupsDir serverId)
        (resolve cwd (dispatcher.backupsDir serverId)) := rfl
  rw [Dispatcher.listBackups, fs, execute_perform_bind, answered]
  unfold Disk.readDir listing
  rw [calm]
  cases course.world.get (resolve cwd (dispatcher.backupsDir serverId)) with
  | none =>
    dsimp only
    split <;> rfl
  | some node =>
    cases node with
    | directory =>
      dsimp only
      by_cases empty : dispatcher.backupsDir serverId = []
      · rw [if_pos empty, if_pos empty]
        rfl
      · rw [if_neg empty, if_neg empty]
        dsimp only
        rw [mapM_backupEntry]
        change Except.ok (newestFirst (List.filterMap id (List.map _ _))) = _
        rw [List.filterMap_map]
        rfl
    | file data => rfl
    | special => rfl

/-- The same entries, or the same error. -/
def SameListing : Except String (List BackupEntry) → Except String (List BackupEntry) → Prop
  | .ok before, .ok after => after.Perm before
  | .error before, .error after => after = before
  | _, _ => False

theorem SameListing.refl (answer : Except String (List BackupEntry)) : SameListing answer answer := by
  cases answer with
  | ok entries => exact List.Perm.refl _
  | error message => rfl

theorem SameListing.congr (same : SameListing first second) (third : Except String (List BackupEntry)) :
    SameListing first third ↔ SameListing second third := by
  cases first with
  | ok a =>
    cases second with
    | ok b =>
      cases third with
      | ok c => exact ⟨fun perm => perm.trans same.symm, fun perm => perm.trans same⟩
      | error message => exact Iff.rfl
    | error message => exact same.elim
  | error a =>
    cases second with
    | ok b => exact same.elim
    | error b =>
      cases same
      exact Iff.rfl

theorem newestFirst_perm (entries : List BackupEntry) : (newestFirst entries).Perm entries :=
  List.mergeSort_perm _ _

theorem listing_directory {disk : Disk} (inside : disk.get location = some .directory) (named : path ≠ []) :
    listing disk path location = .ok (newestFirst (listedIn disk location)) := by
  rw [listing, inside]
  exact if_neg named

theorem listedIn_perm (disk : Disk) (location : Location) (name : FileName) :
    (listedIn disk location).Perm (((disk.get (location ++ [name])).bind (listedAs name)).toList ++
      ((disk.children location).filter (·.1 ≠ name)).filterMap fun entry => listedAs entry.1 entry.2) := by
  have split := (disk.children_perm_split location name).filterMap fun entry => listedAs entry.1 entry.2
  rw [List.filterMap_append] at split
  refine split.trans (List.Perm.of_eq ?_)
  congr 1
  cases disk.get (location ++ [name]) with
  | none => rfl
  | some node =>
    cases listed : listedAs name node <;> simp [listed]

/-- A change of one file in the directory is seen in the listing of that file. -/
theorem sameListing_only_iff {disk after : Disk} (inside : disk.get location = some .directory)
    (only : disk.Only (location ++ [name]) after) (named : path ≠ []) :
    SameListing (listing disk path location) (listing after path location) ↔
      (after.get (location ++ [name])).bind (listedAs name) =
        (disk.get (location ++ [name])).bind (listedAs name) := by
  have above : location ≠ location ++ [name] := fun same => by simpa using congrArg List.length same
  have inside' : after.get location = some .directory := (only location above).trans inside
  rw [listing_directory inside named, listing_directory inside' named]
  have others : ((after.children location).filter (·.1 ≠ name)).Perm
      ((disk.children location).filter (·.1 ≠ name)) := by
    refine FileSystem.filter_children_perm (fun other => decide (other ≠ name)) fun other away => ?_
    exact only _ fun same => of_decide_eq_true away (List.singleton_injective (List.append_cancel_left same))
  have after_perm := (newestFirst_perm _).trans ((listedIn_perm after location name).trans
    ((others.filterMap fun entry => listedAs entry.1 entry.2).append_left _))
  have before_perm := (newestFirst_perm _).trans (listedIn_perm disk location name)
  refine Iff.trans ⟨fun same => (after_perm.symm.trans same).trans before_perm,
    fun same => (after_perm.trans same).trans before_perm.symm⟩ ?_
  rw [List.perm_append_right_iff]
  cases (after.get (location ++ [name])).bind (listedAs name) with
  | none => cases (disk.get (location ++ [name])).bind (listedAs name) <;> simp
  | some entry => cases (disk.get (location ++ [name])).bind (listedAs name) <;> simp

section Leads
variable {disk after : Disk} {location : Location} (leads : disk.Leads location after)
include leads

theorem leads_absence : after.absence location = disk.absence location := by
  have same (front : Location) : ((after.get front).any fun node => !node.isDirectory) =
      (disk.get front).any fun node => !node.isDirectory := by
    rcases leads front with same | ⟨absent, made, -⟩
    · rw [same]
    · rw [absent, made]
      rfl
  simp only [Disk.absence, same]

/-- Making the directory does not change what is listed. -/
theorem sameListing_leads (path : OsPath) :
    SameListing (listing disk path location) (listing after path location) := by
  have below : (listedIn after location).Perm (listedIn disk location) := by
    have all := FileSystem.filter_children_perm (fun _ => true) fun name _ => leads.below (List.cons_ne_nil name [])
    rw [List.filter_true, List.filter_true] at all
    exact all.filterMap _
  rcases leads location with same | ⟨absent, made, -⟩
  · unfold listing
    rw [same, leads_absence leads]
    cases disk.get location with
    | none => exact .refl _
    | some node =>
      cases node with
      | directory =>
        by_cases empty : path = []
        · simp only [if_pos empty]
          exact .refl _
        · simp only [if_neg empty]
          exact (newestFirst_perm _).trans (below.trans (newestFirst_perm _).symm)
      | file data => exact .refl _
      | special => exact .refl _
  · -- The directory is new: nothing was in its place, and nothing is in it.
    have clear : (disk.absence location).notFound = true := by
      rw [← leads_absence leads, Disk.absence_of_isDir (FileSystem.isDir_iff.mpr made)]
      rfl
    have vacant : listedIn disk location = [] := by
      rw [listedIn, FileSystem.children_eq_nil absent]
      rfl
    rw [vacant] at below
    unfold listing
    rw [absent, made]
    simp only [if_pos clear]
    by_cases empty : path = []
    · simp only [if_pos empty]
      exact .refl _
    · simp only [if_neg empty]
      exact (newestFirst_perm _).trans below

end Leads

/-! ## The run of a backup -/

section Run
variable {archiver cwd} {source dest : OsPath} {course : DiskCourse}

/-- What is left to do once the file is made. -/
def fillArchive (source dest : OsPath) : Task Nat := do
  ofIo (← fs (.appendDirAll source dest))
  ofIo (← fs (.syncAll dest))
  let metadata ← ofIo (← fs (.metadata dest))
  pure metadata.len

/-- Only the walk writes. -/
theorem fillArchive_world (source dest : OsPath) (course : DiskCourse) :
    ((fillArchive source dest).execute (Disk.react archiver cwd) course).2.world =
      (course.world.appendDirAll archiver (course.coming 0) source dest (resolve cwd source) (resolve cwd dest)).2 := by
  let filled := course.after (Disk.react archiver cwd) (.fs (.appendDirAll source dest))
  have rest (answer : Except IoError Unit) : ((ofIo answer >>= fun _ => do
      ofIo (← fs (.syncAll dest))
      let metadata ← ofIo (← fs (.metadata dest))
      pure metadata.len : Task Nat).execute (Disk.react archiver cwd) filled).2.world = filled.world := by
    have all : (ofIo answer >>= fun _ => do
        ofIo (← fs (.syncAll dest))
        let metadata ← ofIo (← fs (.metadata dest))
        pure metadata.len : Task Nat).All fun call => call = .fs (.syncAll dest) ∨ call = .fs (.metadata dest) := by
      refine (Dispatcher.all_ofIo answer).bind fun _ => ?_
      refine Dispatcher.all_fs_bind (.inl rfl) fun answer => (Dispatcher.all_ofIo answer).bind fun _ => ?_
      exact Dispatcher.all_fs_bind (.inr rfl) fun answer => (Dispatcher.all_ofIo answer).bind fun _ => trivial
    refine execute_keeps (P := fun later => later.world = filled.world) all ?_ rfl
    rintro later _ (rfl | rfl) same
    · exact same
    · exact same
  exact rest _

/-- The disk after the making of an archive: without a volume it is as it was; otherwise the file is made if it can
be, and then the walk writes to it. -/
theorem core_createBackup_world (source dest : OsPath) (course : DiskCourse) :
    ((Core.createBackup source dest).execute (Disk.react archiver cwd) course).2.world =
      if course.world.isDirAt (course.coming 0) source (resolve cwd source) then
        match course.world.createFile (course.coming 1) dest (resolve cwd dest) with
        | (.ok (), made) =>
            (made.appendDirAll archiver (course.coming 2) source dest (resolve cwd source) (resolve cwd dest)).2
        | (.error _, same) => same
      else course.world := by
  have looks : course.answer (Disk.react archiver cwd) (.fs (.isDir source)) =
      course.world.isDirAt (course.coming 0) source (resolve cwd source) := rfl
  rw [Core.createBackup, fs, execute_perform_bind, looks]
  cases course.world.isDirAt (course.coming 0) source (resolve cwd source) with
  | false => rfl
  | true =>
    let looked := course.after (Disk.react archiver cwd) (.fs (.isDir source))
    rcases created : course.world.createFile (course.coming 1) dest (resolve cwd dest) with ⟨answer, made⟩
    have reacted : Disk.react archiver cwd looked.world (looked.coming 0) (.fs (.createFile dest)) = (answer, made) :=
      created
    obtain ⟨ran, world⟩ := execute_reacted (fun answer => ofIo answer >>= fun _ => fillArchive source dest) reacted
    rw [Bool.not_true, if_neg Bool.false_ne_true, if_pos rfl]
    refine (congrArg (fun ended => ended.2.world) ran).trans ?_
    cases answer with
    | error error => exact world
    | ok _ =>
      refine (fillArchive_world source dest _).trans ?_
      rw [world]
      rfl

end Run

/-! ## Where a backup fails

The calls are `create_dir_all`, the clock, `is_dir`, `File::create`, the walk, the sync and the look at
the size, in this order; `choices` has one entry for each. -/

section Fails
variable (dispatcher : Dispatcher) (serverId : String) (disk : Disk) (choices : Nat → DiskChoice)

/-- What `create_dir_all` answers, and the disk after it. -/
def ledToDir : Except IoError Unit × Disk :=
  disk.createDirAll (choices 0) (dispatcher.backupsDir serverId) (resolve cwd (dispatcher.backupsDir serverId))

/-- The archive is named by the clock. -/
def archiveNow : OsPath := archivePath dispatcher serverId ((choices 1).answer .now)

/-- What `File::create` answers, and the disk after it. -/
def fileMade : Except IoError Unit × Disk :=
  (ledToDir cwd dispatcher serverId disk choices).2.createFile (choices 3) (archiveNow dispatcher serverId choices)
    (resolve cwd (archiveNow dispatcher serverId choices))

/-- No call up to `File::create` fails, and there is a volume. -/
structure MakesFile : Prop where
  led : (ledToDir cwd dispatcher serverId disk choices).1 = .ok ()
  volume : (ledToDir cwd dispatcher serverId disk choices).2.isDirAt (choices 2) (volumePath dispatcher serverId)
    (resolve cwd (volumePath dispatcher serverId)) = true
  created : (fileMade cwd dispatcher serverId disk choices).1 = .ok ()

/-- What the file then holds: if the walk fails, as much as it had written, which may be nothing; if the sync or
the look at the size fails, the whole archive. -/
def remains : FileData :=
  match (choices 4).fault, (choices 4).left with
  | some _, none => ⟨[], (choices 3).time⟩
  | some _, some left => ⟨left, (choices 4).time⟩
  | none, _ => ⟨archiver.encode (archiver.walk (fileMade cwd dispatcher serverId disk choices).2
      (resolve cwd (volumePath dispatcher serverId))), (choices 4).time⟩

variable {dispatcher serverId disk choices}

/-- What a walk of a directory that is there leaves in the file. -/
theorem appendDirAll_leaves {disk : Disk} {choice : DiskChoice} {source archive : OsPath} {volume location : Location}
    (present : disk.get location = some (.file old)) (looks : disk.isDirAt calm source volume = true) :
    (disk.appendDirAll archiver choice source archive volume location).2.get location =
      some (.file (match choice.fault, choice.left with
        | some _, none => old
        | some _, some left => ⟨left, choice.time⟩
        | none, _ => ⟨archiver.encode (archiver.walk disk volume), choice.time⟩)) := by
  simp only [Disk.isDirAt, Bool.and_eq_true] at looks
  have written (data : FileData) := FileSystem.get_put_self (Disk.fits_file present data)
  simp only [Disk.appendDirAll, present]
  cases choice.fault with
  | none =>
    simp only [Option.isNone_none, looks.1.2, looks.2, Bool.and_self, if_true]
    exact written _
  | some error =>
    cases choice.left with
    | none => exact present
    | some left => exact written _

/-- After the directory and the clock, the archive is made on what the directory left. -/
theorem createBackup_goes_on (led : (ledToDir cwd dispatcher serverId disk choices).1 = .ok ()) :
    ∃ course : DiskCourse, course.world = (ledToDir cwd dispatcher serverId disk choices).2 ∧
      (∀ n, course.coming n = choices (n + 2)) ∧
      ((dispatcher.createBackup serverId).execute (Disk.react archiver cwd) (.start disk choices)).2.world =
        ((Core.createBackup (volumePath dispatcher serverId) (archiveNow dispatcher serverId choices)).execute
          (Disk.react archiver cwd) course).2.world := by
  let first : DiskCourse := .start disk choices
  let second := first.after (Disk.react archiver cwd) (.fs (.createDirAll (dispatcher.backupsDir serverId)))
  refine ⟨second.after (Disk.react archiver cwd) .now, rfl, fun _ => rfl, ?_⟩
  have answered : first.answer (Disk.react archiver cwd) (.fs (.createDirAll (dispatcher.backupsDir serverId))) =
      .ok () := led
  rw [Dispatcher.createBackup, fs, execute_perform_bind, answered]
  exact congrArg Course.world (execute_withContext_end _ _ _ _ _)

/-- A backup that does not get to make its file has made directories at most. -/
theorem createBackup_unmade (unmade : ¬ MakesFile cwd dispatcher serverId disk choices) :
    ((dispatcher.createBackup serverId).execute (Disk.react archiver cwd) (.start disk choices)).2.world =
      (ledToDir cwd dispatcher serverId disk choices).2 := by
  cases led : (ledToDir cwd dispatcher serverId disk choices).1 with
  | error error =>
    have answered : (Course.start disk choices : DiskCourse).answer (Disk.react archiver cwd)
        (.fs (.createDirAll (dispatcher.backupsDir serverId))) = .error error := led
    rw [Dispatcher.createBackup, fs, execute_perform_bind, answered]
    rfl
  | ok _ =>
    obtain ⟨course, world, coming, ends⟩ := createBackup_goes_on archiver cwd led
    rw [ends, core_createBackup_world, world, coming, coming, coming]
    by_cases volume : (ledToDir cwd dispatcher serverId disk choices).2.isDirAt (choices 2)
        (volumePath dispatcher serverId) (resolve cwd (volumePath dispatcher serverId)) = true
    · rw [if_pos volume]
      rcases (ledToDir cwd dispatcher serverId disk choices).2.createFile_cases (choices 3)
        (archiveNow dispatcher serverId choices) (resolve cwd (archiveNow dispatcher serverId choices)) with
        ⟨error, refused⟩ | ⟨-, -, created⟩
      · rw [refused]
      · exact absurd ⟨led, volume, congrArg Prod.fst created⟩ unmade
    · rw [if_neg volume]

/-- Otherwise the file is there, with what the walk has written. -/
theorem createBackup_made (makes : MakesFile cwd dispatcher serverId disk choices) :
    (ledToDir cwd dispatcher serverId disk choices).2.Only (resolve cwd (archiveNow dispatcher serverId choices))
        ((dispatcher.createBackup serverId).execute (Disk.react archiver cwd) (.start disk choices)).2.world ∧
      ((dispatcher.createBackup serverId).execute (Disk.react archiver cwd) (.start disk choices)).2.world.get
        (resolve cwd (archiveNow dispatcher serverId choices)) =
          some (.file (remains archiver cwd dispatcher serverId disk choices)) := by
  obtain ⟨course, world, coming, ends⟩ := createBackup_goes_on archiver cwd makes.led
  rcases (ledToDir cwd dispatcher serverId disk choices).2.createFile_cases (choices 3)
      (archiveNow dispatcher serverId choices) (resolve cwd (archiveNow dispatcher serverId choices)) with
    ⟨error, refused⟩ | ⟨fits, -, created⟩
  · cases makes.created.symm.trans (congrArg Prod.fst refused)
  · let file : Node FileData := .file ⟨[], (choices 3).time⟩
    have made : (fileMade cwd dispatcher serverId disk choices).2 =
        (ledToDir cwd dispatcher serverId disk choices).2.put
        (resolve cwd (archiveNow dispatcher serverId choices)) file := congrArg Prod.snd created
    have only := Disk.Only.put (ledToDir cwd dispatcher serverId disk choices).2
      (resolve cwd (archiveNow dispatcher serverId choices)) file
    have present := FileSystem.get_put_self fits
    rw [← made] at only present
    have looks : (fileMade cwd dispatcher serverId disk choices).2.isDirAt (choices 2) (volumePath dispatcher serverId)
        (resolve cwd (volumePath dispatcher serverId)) = true := by
      -- the volume is a directory, so the file is not in its place
      have volume := makes.volume
      rw [Disk.isDirAt, Bool.and_eq_true] at volume ⊢
      refine ⟨volume.1, ?_⟩
      rw [FileSystem.isDir_iff, only _ fun same => ?_]
      · exact FileSystem.isDir_iff.mp volume.2
      · have leaf := fits.leaf.resolve_left Bool.false_ne_true
        rw [← same, volume.2] at leaf
        contradiction
    rw [ends, core_createBackup_world, world, coming, coming, coming, if_pos makes.volume, created, ← made]
    have walked := (fileMade cwd dispatcher serverId disk choices).2.appendDirAll_only archiver (choices 4)
      (volumePath dispatcher serverId) (archiveNow dispatcher serverId choices)
      (resolve cwd (volumePath dispatcher serverId)) (resolve cwd (archiveNow dispatcher serverId choices))
    exact ⟨only.trans walked.1, appendDirAll_leaves archiver present looks⟩

end Fails

/-- A failed backup command ends where the making of its archive ended. -/
theorem handle_backup_failed {dispatcher : Dispatcher} {codec : Base64} {cmd : CommandPayload}
    {course after : DiskCourse} {ack : AckPayload} (action : cmd.action = .backup)
    (handled : (dispatcher.handle codec cmd).execute (Disk.react archiver cwd) course = (.ok ack, after))
    (failed : ack.ok = false) :
    ∃ message, (dispatcher.createBackup cmd.serverId).execute (Disk.react archiver cwd) course =
      (.error message, after) := by
  rw [dispatcher.handle_run codec cmd] at handled
  simp only [Dispatcher.handleInner, action, execute_bind] at handled
  rcases ran : (dispatcher.createBackup cmd.serverId).execute (Disk.react archiver cwd) course with ⟨_ | _, ended⟩
  · rw [Effect.bind_run_error ran] at handled
    cases handled
    exact ⟨_, rfl⟩
  · rw [Effect.bind_run_ok ran] at handled
    cases handled
    contradiction

/-- The archive's file stands in the backups directory under the name of its second. -/
theorem resolve_archive (dispatcher : Dispatcher) (serverId : String) (secs : Nat) :
    resolve cwd (join (dispatcher.backupsDir serverId) (Text.bytes (Dispatcher.backupFilename secs))) =
      resolve cwd (dispatcher.backupsDir serverId) ++
        [⟨Text.bytes (Dispatcher.backupFilename secs), Dispatcher.backupFilename_plain secs⟩] := by
  rw [resolve_join]
  exact resolve_name _ ⟨_, Dispatcher.backupFilename_plain secs⟩

theorem sameListing_made_iff {disk led after : Disk} {location : Location} {path : OsPath}
    (leads : disk.Leads location led) (only : led.Only (location ++ [name]) after)
    (isFile : after.get (location ++ [name]) = some (.file data)) :
    SameListing (listing disk path location) (listing after path location) ↔
      path = [] ∨ (disk.get (location ++ [name])).bind (listedAs name) = listedAs name (.file data) := by
  have inside' : after.get location = some .directory :=
    FileSystem.isDir_iff.mp (after.isDir_above (by rw [isFile]; rfl) (List.cons_ne_nil name []))
  have inside : led.get location = some .directory := by
    rw [← only location fun same => by simpa using congrArg List.length same]
    exact inside'
  rw [(sameListing_leads leads path).congr]
  by_cases empty : path = []
  · refine iff_of_true ?_ (.inl empty)
    rw [listing, listing, inside, inside']
    simp only [if_pos empty]
    exact .refl _
  · rw [sameListing_only_iff inside only empty, leads.below (List.cons_ne_nil name []), or_iff_right empty, isFile,
      Option.bind_some, eq_comm]

/-- Only a regular file is listed, by its length and its time. -/
theorem listed_as_file_iff {node : Option (Node FileData)} {name : FileName} {data : FileData} :
    node.bind (listedAs name) = listedAs name (.file data) ↔
      ∃ old, node = some (.file old) ∧ old.content.length = data.content.length ∧
        old.modified.getD 0 = data.modified.getD 0 := by
  cases node with
  | none => simp [listedAs]
  | some node => cases node <;> simp [listedAs]

/-- The device is full when the call of that number comes. -/
def fullAt (number : Nat) (n : Nat) : DiskChoice :=
  if n = number then { DiskChoice.calm 5 with fault := some ⟨false, "No space left on device (os error 28)"⟩ }
  else .calm 5

/-- A backup of the server on the sample disk. -/
def sampleBackup (serverId : String) (choices : Nat → DiskChoice) : Except String AckPayload × DiskCourse :=
  (Dispatcher.defaultDispatcher.handle Dispatcher.unusedCodec (lifecycleCommand .backup serverId none)).execute
    (Disk.react plainArchiver []) (.start Disk.sample choices)

/-- What is listed for the server when nothing fails. -/
def sampleListing (serverId : String) (disk : Disk) : Except String (List BackupEntry) :=
  ((Dispatcher.defaultDispatcher.listBackups serverId).execute (Disk.react plainArchiver [])
    (.start disk fun _ => .calm 9)).1

end SkyDaemon.Agent
