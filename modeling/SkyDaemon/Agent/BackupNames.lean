import SkyDaemon.Agent.Backups

/-! The guard on backup names. It looks at the components of a name, not at its text, so besides
single names it lets through a name with separators and dots behind it. What it lets through
always stands directly in the backups directory, and what a backup or a listing reports is let
through and leads back to the very file. -/
namespace SkyDaemon.Agent
open Protocol UnixPath Program

/-! ## Names -/

/-- The names that the guard is meant for. -/
structure SingleName (name : String) : Prop where
  nonempty : name ≠ ""
  noSeparator : '/' ∉ name.toList
  notHere : name ≠ "."
  notUp : name ≠ ".."

/-- A single name, a separator, and behind it nothing but separators and dots. -/
def Trailed (name : String) : Prop :=
  ∃ front rest : String, name = front ++ "/" ++ rest ∧ SingleName front ∧
    ∀ piece ∈ rest.toList.splitOn '/', piece = [] ∨ piece = ['.']

theorem plain_bytes (name : String) : Plain (Text.bytes name) ↔ SingleName name := by
  have text {other : String} : Text.bytes name = Text.bytes other ↔ name = other := Text.bytes_injective.eq_iff
  have separator : slash ∈ Text.bytes name ↔ '/' ∈ name.toList := Text.mem_bytes (c := '/') (by decide) name
  constructor
  · rintro ⟨nonempty, notHere, notUp, free⟩
    exact ⟨fun same => nonempty (text.mpr same), fun member => free (separator.mpr member),
      fun same => notHere (text.mpr same), fun same => notUp (text.mpr same)⟩
  · rintro ⟨nonempty, free, notHere, notUp⟩
    exact ⟨fun same => nonempty (text.mp same), fun same => notHere (text.mp same),
      fun same => notUp (text.mp same), fun member => free (separator.mp member)⟩

/-- The pieces of a name up to its first separator and behind it. -/
theorem pieces_separated (free : '/' ∉ front.toList) (rest : String) :
    pieces (Text.bytes (front ++ "/" ++ rest)) = Text.bytes front :: pieces (Text.bytes rest) := by
  have plain : slash ∉ Text.bytes front := fun member => free ((Text.mem_bytes (c := '/') (by decide) front).mp member)
  rw [Text.bytes_append, Text.bytes_append, List.append_assoc]
  exact (pieces_append (Text.bytes front) (Text.bytes rest)).trans (by rw [pieces_plain plain]; rfl)

theorem pieces_skipped (rest : String) : (∀ piece ∈ pieces (Text.bytes rest), skipped piece = true) ↔
    ∀ piece ∈ rest.toList.splitOn '/', piece = [] ∨ piece = ['.'] := by
  rw [Dispatcher.pieces_bytes, List.forall_mem_map]
  refine forall₂_congr fun piece _ => ?_
  rw [Dispatcher.skipped_bytes, decide_eq_true_iff]

theorem split_separated {name : String} (separated : '/' ∈ name.toList) :
    ∃ front rest : String, name = front ++ "/" ++ rest ∧ '/' ∉ front.toList := by
  obtain ⟨front, rest, split, free⟩ := List.eq_append_cons_of_mem separated
  refine ⟨String.ofList front, String.ofList rest, ?_, by rwa [String.toList_ofList]⟩
  rw [← String.toList_inj, split]
  simp

/-- The names of one component. -/
theorem components_single_bytes (name : String) : (∃ file, components (Text.bytes name) = [.normal file]) ↔
    SingleName name ∨ Trailed name := by
  constructor
  · rintro ⟨file, single⟩
    obtain ⟨rest, split, skipped⟩ := (components_single_iff _ file).mp single
    by_cases separated : '/' ∈ name.toList
    · obtain ⟨front, behind, rfl, free⟩ := split_separated separated
      rw [pieces_separated free] at split
      obtain ⟨same, rfl⟩ := List.cons.inj split
      refine .inr ⟨front, behind, rfl, (plain_bytes front).mp (same ▸ file.property), ?_⟩
      exact (pieces_skipped behind).mp skipped
    · have free : slash ∉ Text.bytes name := fun member =>
        separated ((Text.mem_bytes (c := '/') (by decide) name).mp member)
      rw [pieces_plain free] at split
      exact .inl ((plain_bytes name).mp ((List.cons.inj split).1 ▸ file.property))
  · rintro (single | ⟨front, rest, rfl, single, skipped⟩)
    · exact ⟨_, components_name ⟨_, (plain_bytes name).mpr single⟩⟩
    · refine ⟨⟨_, (plain_bytes front).mpr single⟩, (components_single_iff _ _).mpr ⟨pieces (Text.bytes rest), ?_, ?_⟩⟩
      · exact pieces_separated single.noSeparator rest
      · exact (pieces_skipped rest).mpr skipped

theorem Trailed.separated {name : String} (trailed : Trailed name) : '/' ∈ name.toList := by
  obtain ⟨front, rest, rfl, -⟩ := trailed
  simp

/-! ## The guard -/

section Guard
variable (dispatcher : Dispatcher) (serverId : String)

theorem backupPath_eq_ok_iff (name : String) (path : OsPath) : dispatcher.backupPath serverId name = .ok path ↔
    (SingleName name ∨ Trailed name) ∧ path = join (dispatcher.backupsDir serverId) (Text.bytes name) := by
  rw [← components_single_bytes, Dispatcher.backupPath]
  split
  · rename_i file single
    simp [single, eq_comm]
  · rename_i other
    refine iff_of_false nofun ?_
    rintro ⟨⟨file, single⟩, -⟩
    exact other file single

/-- A name that is accepted leads to an entry of the backups directory. -/
theorem backupPath_child (accepted : dispatcher.backupPath serverId name = .ok path) :
    ∃ file : FileName, ∀ cwd, resolve cwd path = resolve cwd (dispatcher.backupsDir serverId) ++ [file] := by
  obtain ⟨form, rfl⟩ := (backupPath_eq_ok_iff dispatcher serverId name path).mp accepted
  obtain ⟨file, single⟩ := (components_single_bytes name).mpr form
  refine ⟨file, fun cwd => ?_⟩
  rw [resolve_join, resolve, single]
  rfl

/-- Just the single names are accepted, and such a name gives the entry of that name. -/
structure GuardsName (name : String) : Prop where
  accepts : (∃ path, dispatcher.backupPath serverId name = .ok path) ↔ SingleName name
  child : ∀ path, dispatcher.backupPath serverId name = .ok path → ∃ file : FileName, file.val = Text.bytes name ∧
    path = join (dispatcher.backupsDir serverId) file.val ∧
    ∀ cwd, resolve cwd path = resolve cwd (dispatcher.backupsDir serverId) ++ [file]

/-- The file name leads back to this entry of the backups directory. -/
structure Reaches (cwd : Location) (filename : String) (file : FileName) : Prop where
  named : Text.bytes filename = file.val
  accepted : dispatcher.backupPath serverId filename = .ok (join (dispatcher.backupsDir serverId) file.val)
  located : resolve cwd (join (dispatcher.backupsDir serverId) file.val) =
    resolve cwd (dispatcher.backupsDir serverId) ++ [file]

theorem reaches_named {file : FileName} (cwd : Location) (named : Text.bytes filename = file.val) :
    Reaches dispatcher serverId cwd filename file := by
  have single : SingleName filename := (plain_bytes filename).mp (named ▸ file.property)
  refine ⟨named, (backupPath_eq_ok_iff dispatcher serverId filename _).mpr ⟨.inl single, by rw [named]⟩, ?_⟩
  rw [resolve_join, resolve_name]

theorem guardsName_iff (name : String) : GuardsName dispatcher serverId name ↔ ¬Trailed name := by
  constructor
  · intro guards trailed
    have accepted := (backupPath_eq_ok_iff dispatcher serverId name _).mpr ⟨.inr trailed, rfl⟩
    exact (guards.accepts.mp ⟨_, accepted⟩).noSeparator trailed.separated
  · intro untrailed
    have single {path : OsPath} (accepted : dispatcher.backupPath serverId name = .ok path) : SingleName name :=
      ((backupPath_eq_ok_iff dispatcher serverId name path).mp accepted).1.resolve_right untrailed
    constructor
    · refine ⟨fun ⟨path, accepted⟩ => single accepted, fun single => ?_⟩
      exact ⟨_, (backupPath_eq_ok_iff dispatcher serverId name _).mpr ⟨.inl single, rfl⟩⟩
    · intro path accepted
      have reaches (cwd : Location) :
          Reaches dispatcher serverId cwd name ⟨_, (plain_bytes name).mpr (single accepted)⟩ :=
        reaches_named dispatcher serverId cwd rfl
      obtain ⟨-, rfl⟩ := (backupPath_eq_ok_iff dispatcher serverId name path).mp accepted
      exact ⟨_, rfl, rfl, fun cwd => (reaches cwd).located⟩

end Guard

/-! ## What is reported -/

section Reports
variable {dispatcher : Dispatcher} {serverId : String} {archiver : Archiver} {cwd : Location}

/-- Whatever fails, only regular files of the backups directory are listed. -/
theorem listBackups_listed {course : DiskCourse}
    (listed : ((dispatcher.listBackups serverId).execute (Disk.react archiver cwd) course).1 = .ok entries) :
    ∀ entry ∈ entries, ∃ file data,
      course.world.get (resolve cwd (dispatcher.backupsDir serverId) ++ [file]) = some (.file data) ∧
        listedAs file (.file data) = some entry := by
  intro entry member
  cases fault : (course.coming 0).fault with
  | some error =>
    have answered : course.answer (Disk.react archiver cwd) (.fs (.readDir (dispatcher.backupsDir serverId))) =
        .error error := by
      change course.world.readDir (course.coming 0) _ _ = _
      rw [Disk.readDir, fault]
    rw [Dispatcher.listBackups, fs, execute_perform_bind, answered] at listed
    dsimp only at listed
    split at listed
    · cases listed
      contradiction
    · cases listed
  | none =>
    rw [listBackups_run archiver cwd fault] at listed
    unfold listing at listed
    split at listed
    · split at listed
      · cases listed
        contradiction
      · cases listed
    · split at listed
      · cases listed
        contradiction
      · cases listed
        have inside := (newestFirst_perm _).mem_iff.mp member
        obtain ⟨⟨file, node⟩, child, shown⟩ := List.mem_filterMap.mp inside
        have present := FileSystem.mem_children.mp child
        cases node with
        | file data => exact ⟨file, data, present, shown⟩
        | directory => cases shown
        | special => cases shown
    · cases listed

/-- The listing in an ack is that of `list_backups`. -/
theorem handle_listed {codec : Base64} {cmd : CommandPayload} {course after : DiskCourse} {ack : AckPayload}
    (action : cmd.action = .listBackups)
    (handled : (dispatcher.handle codec cmd).execute (Disk.react archiver cwd) course = (.ok ack, after))
    (reported : ack.result = some (.listBackups entries)) :
    ((dispatcher.listBackups cmd.serverId).execute (Disk.react archiver cwd) course).1 = .ok entries := by
  rw [dispatcher.handle_run codec cmd] at handled
  simp only [Dispatcher.handleInner, action, execute_bind] at handled
  rcases ran : (dispatcher.listBackups cmd.serverId).execute (Disk.react archiver cwd) course with ⟨_ | _, ended⟩
  · rw [Effect.bind_run_error ran] at handled
    cases handled
    cases reported
  · rw [Effect.bind_run_ok ran] at handled
    cases handled
    cases reported
    rfl

/-- The file was made. -/
def Creates (past : List (Exchange Call Call.Response)) (path : OsPath) : Prop :=
  (⟨.fs (.createFile path), .ok ()⟩ : Exchange Call Call.Response) ∈ past

/-- A backup that reports a file name has made the file of that name, and no other. -/
theorem handle_made {codec : Base64} {cmd : CommandPayload} {disk : Disk} {choices : Nat → DiskChoice}
    {after : DiskCourse} {ack : AckPayload} (action : cmd.action = .backup)
    (handled : (dispatcher.handle codec cmd).execute (Disk.react archiver cwd) (.start disk choices) = (.ok ack, after))
    (reported : ack.result = some (.backup filename size)) :
    ∃ secs, filename = Dispatcher.backupFilename secs ∧
      ∀ path, Creates after.past path ↔ path = join (dispatcher.backupsDir cmd.serverId) (Text.bytes filename) := by
  have successful : ack.ok = true := by
    have whole := handled
    rw [dispatcher.handle_run codec cmd] at whole
    cases ended : ((dispatcher.handleInner codec cmd).execute (Disk.react archiver cwd) (.start disk choices)).1 with
    | error message =>
      rw [ended] at whole
      cases whole
      cases reported
    | ok result =>
      rw [ended] at whole
      cases whole
      rfl
  obtain ⟨made, past, ran⟩ := execute_ran (Disk.react archiver cwd) (dispatcher.handle codec cmd) (.start disk choices)
  rw [handled] at past ran
  obtain ⟨secs, metadata, history, result⟩ := (handle_backup_meets dispatcher codec action).ran ran successful
  rw [reported] at result
  cases result
  refine ⟨secs, rfl, fun path => ?_⟩
  have past : after.past = made := past
  rw [List.nil_append] at history
  rw [Creates, past, history]
  simp only [led, timed, looked, Agent.made, filled, synced, measured, told, List.mem_cons, List.not_mem_nil, or_false]
  constructor
  · rintro (same | same | same | same | same | same | same | same) <;> cases same
    rfl
  · rintro rfl
    exact .inr (.inr (.inr (.inl rfl)))

/-- What the ack of a command reports leads back to the file it is about: the one that is listed, or
the only one that was made. -/
structure ReportsReach (dispatcher : Dispatcher) (cwd : Location) (cmd : CommandPayload) (disk : Disk)
    (ack : AckPayload) (after : DiskCourse) : Prop where
  listed : cmd.action = .listBackups → ∀ entries, ack.result = some (.listBackups entries) → ∀ entry ∈ entries,
    ∃ file data, disk.get (resolve cwd (dispatcher.backupsDir cmd.serverId) ++ [file]) = some (.file data) ∧
      listedAs file (.file data) = some entry ∧
      ((Text.fromUtf8 file.val).isSome = true → Reaches dispatcher cmd.serverId cwd entry.filename file)
  made : cmd.action = .backup → ∀ filename size, ack.result = some (.backup filename size) →
    ∃ file, Reaches dispatcher cmd.serverId cwd filename file ∧
      ∀ path, Creates after.past path ↔ path = join (dispatcher.backupsDir cmd.serverId) file.val

theorem handle_reach {codec : Base64} {cmd : CommandPayload} {disk : Disk} {choices : Nat → DiskChoice}
    {after : DiskCourse} {ack : AckPayload}
    (handled : (dispatcher.handle codec cmd).execute (Disk.react archiver cwd) (.start disk choices) =
      (.ok ack, after)) :
    ReportsReach dispatcher cwd cmd disk ack after := by
  constructor
  · intro action entries reported entry member
    obtain ⟨file, data, present, shown⟩ := listBackups_listed (handle_listed action handled reported) entry member
    refine ⟨file, data, present, shown, fun valid => reaches_named dispatcher _ cwd ?_⟩
    cases shown
    exact Text.bytes_lossy valid
  · intro action filename size reported
    obtain ⟨secs, rfl, creates⟩ := handle_made action handled reported
    exact ⟨⟨_, Dispatcher.backupFilename_plain secs⟩, reaches_named dispatcher _ cwd rfl, creates⟩

end Reports

/-- The guard is exact on every name but a single one that has separators and dots behind it. Also
with those it leads nowhere but into the backups directory, and every file name that a backup or a
listing reports leads back to its own file. -/
theorem backup_names_exact_iff (dispatcher : Dispatcher) (serverId name : String) :
    (GuardsName dispatcher serverId name ↔ ¬Trailed name) ∧
      (∀ path, dispatcher.backupPath serverId name = .ok path →
        ∃ file : FileName, ∀ cwd, resolve cwd path = resolve cwd (dispatcher.backupsDir serverId) ++ [file]) ∧
      ∀ (archiver : Archiver) (cwd : Location) (codec : Base64) (cmd : CommandPayload) (disk : Disk)
        (choices : Nat → DiskChoice) (ack : AckPayload) (after : DiskCourse), cmd.serverId = serverId →
        (dispatcher.handle codec cmd).execute (Disk.react archiver cwd) (.start disk choices) = (.ok ack, after) →
        ReportsReach dispatcher cwd cmd disk ack after :=
  ⟨guardsName_iff dispatcher serverId name, fun _ => backupPath_child dispatcher serverId,
    fun _ _ _ _ _ _ _ _ _ => handle_reach⟩

/-- A backup on the sample disk, and the archive by its reported name. -/
theorem sample_backup_reached :
    GuardsName Dispatcher.defaultDispatcher "s1" "backup-5.tar.zst" ∧
      ∃ file, Reaches Dispatcher.defaultDispatcher "s1" [] "backup-5.tar.zst" file ∧
        Creates (sampleBackup "s1" fun _ => .calm 5).2.past
          (join (Dispatcher.defaultDispatcher.backupsDir "s1") file.val) := by
  obtain ⟨guards, -, reports⟩ := backup_names_exact_iff Dispatcher.defaultDispatcher "s1" "backup-5.tar.zst"
  have acked : (sampleBackup "s1" fun _ => .calm 5).1 =
      .ok ⟨"cmd-1", true, none, some (.backup "backup-5.tar.zst" 61)⟩ := by decide +kernel
  refine ⟨guards.mpr fun trailed => absurd trailed.separated (by decide), ?_⟩
  obtain ⟨file, reaches, creates⟩ := (reports plainArchiver [] _ _ Disk.sample _ _ _ rfl (Prod.ext acked rfl)).made
    rfl _ _ rfl
  exact ⟨file, reaches, (creates _).mpr rfl⟩

/-- A separator behind the name is accepted. -/
theorem trailing_separator_accepted :
    Dispatcher.defaultDispatcher.backupPath "s1" "a/" = .ok (Text.bytes "/srv/sky-panel/backups/s1/a/") ∧
      ¬GuardsName Dispatcher.defaultDispatcher "s1" "a/" := by
  have accepted : Dispatcher.defaultDispatcher.backupPath "s1" "a/" =
      .ok (Text.bytes "/srv/sky-panel/backups/s1/a/") := by decide +kernel
  refine ⟨accepted, fun guards => ?_⟩
  exact absurd (guards.accepts.mp ⟨_, accepted⟩).noSeparator (by decide)

end SkyDaemon.Agent
