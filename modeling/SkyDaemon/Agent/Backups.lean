import SkyDaemon.Foundation.Pool
import SkyDaemon.Agent.BackupFailure

/-! The backup commands of one server side by side. An archive is named after the second in
which its command read the clock, and making its file empties one that is there already.
As long as no two commands read the same second, an archive keeps its content until it is
deleted. -/
namespace SkyDaemon.Agent
open Protocol UnixPath Program Transition

abbrev BackupPool := Pool Disk CommandPayload Call Call.Response AckPayload

abbrev BackupEvent := Pool.Event CommandPayload DiskChoice

/-- The commands that work on the backups of the server. -/
def BackupCommand (serverId : String) (cmd : CommandPayload) : Prop :=
  cmd.serverId = serverId ∧
    (cmd.action = .backup ∨ cmd.action = .listBackups ∨ cmd.action = .restoreBackup ∨ cmd.action = .deleteBackup)

section Commands
variable (dispatcher : Dispatcher) (serverId : String)

/-! ## What a backup does -/

/-! The exchanges of a backup that succeeds, in their order. -/

abbrev DiskExchange := Exchange Call Call.Response

def led : DiskExchange := ⟨.fs (.createDirAll (dispatcher.backupsDir serverId)), .ok ()⟩
def timed (secs : Nat) : DiskExchange := ⟨.now, secs⟩
def looked : DiskExchange := ⟨.fs (.isDir (volumePath dispatcher serverId)), true⟩
def made (secs : Nat) : DiskExchange := ⟨.fs (.createFile (archivePath dispatcher serverId secs)), .ok ()⟩
def filled (secs : Nat) : DiskExchange :=
  ⟨.fs (.appendDirAll (volumePath dispatcher serverId) (archivePath dispatcher serverId secs)), .ok ()⟩
def synced (secs : Nat) : DiskExchange := ⟨.fs (.syncAll (archivePath dispatcher serverId secs)), .ok ()⟩
def measured (secs : Nat) (metadata : Metadata) : DiskExchange :=
  ⟨.fs (.metadata (archivePath dispatcher serverId secs)), .ok metadata⟩
def told (secs : Nat) : DiskExchange := ⟨.emit ⟨serverId, .backupDone, Dispatcher.backupFilename secs⟩, ()⟩

/-- The next call of a backup, after everything so far went well. -/
inductive BackupCall : List DiskExchange → Call → Prop where
  | led : BackupCall [] (led dispatcher serverId).1
  | timed : BackupCall [led dispatcher serverId] .now
  | looked (secs : Nat) : BackupCall [led dispatcher serverId, timed secs] (looked dispatcher serverId).1
  | made (secs : Nat) : BackupCall [led dispatcher serverId, timed secs, looked dispatcher serverId]
      (made dispatcher serverId secs).1
  | filled (secs : Nat) : BackupCall [led dispatcher serverId, timed secs, looked dispatcher serverId,
      made dispatcher serverId secs] (filled dispatcher serverId secs).1
  | synced (secs : Nat) : BackupCall [led dispatcher serverId, timed secs, looked dispatcher serverId,
      made dispatcher serverId secs, filled dispatcher serverId secs] (synced dispatcher serverId secs).1
  | measured (secs : Nat) : BackupCall [led dispatcher serverId, timed secs, looked dispatcher serverId,
      made dispatcher serverId secs, filled dispatcher serverId secs, synced dispatcher serverId secs]
      (.fs (.metadata (archivePath dispatcher serverId secs)))
  | told (secs : Nat) (metadata : Metadata) : BackupCall [led dispatcher serverId, timed secs,
      looked dispatcher serverId, made dispatcher serverId secs, filled dispatcher serverId secs,
      synced dispatcher serverId secs, measured dispatcher serverId secs metadata] (told serverId secs).1

/-- A backup that succeeded made all of its calls. -/
def BackupDone (history : List DiskExchange) (ack : AckPayload) : Prop :=
  ack.ok = true → ∃ secs metadata,
    history = [led dispatcher serverId, timed secs, looked dispatcher serverId, made dispatcher serverId secs,
      filled dispatcher serverId secs, synced dispatcher serverId secs, measured dispatcher serverId secs metadata,
      told serverId secs] ∧
    ack.result = some (.backup (Dispatcher.backupFilename secs) metadata.len)

theorem handle_backup_meets (codec : Base64) {cmd : CommandPayload} (action : cmd.action = .backup) :
    (dispatcher.handle codec cmd).Meets (BackupCall dispatcher cmd.serverId)
      (BackupDone dispatcher cmd.serverId) [] := by
  simp only [Dispatcher.handle, Dispatcher.handleInner, action]
  have failed {history : List DiskExchange} {message : String} : BackupDone dispatcher cmd.serverId history
      ⟨cmd.commandId, false, some message, none⟩ := fun ok => absurd ok Bool.false_ne_true
  refine ⟨.led, fun answer => ?_⟩
  cases answer with
  | error error => exact failed
  | ok _ =>
    refine ⟨.timed, fun secs => ⟨.looked secs, fun isDir => ?_⟩⟩
    cases isDir with
    | false => exact failed
    | true =>
      refine ⟨.made secs, fun answer => ?_⟩
      cases answer with
      | error error => exact failed
      | ok _ =>
        refine ⟨.filled secs, fun answer => ?_⟩
        cases answer with
        | error error => exact failed
        | ok _ =>
          refine ⟨.synced secs, fun answer => ?_⟩
          cases answer with
          | error error => exact failed
          | ok _ =>
            refine ⟨.measured secs, fun answer => ?_⟩
            cases answer with
            | error error => exact failed
            | ok metadata => exact ⟨.told secs metadata, fun _ _ => ⟨secs, metadata, rfl, rfl⟩⟩

/-! ## What the other commands do -/

/-- The calls of the other commands: they read, they write below the volume, and a
deletion removes one file. -/
def Aside (cwd : Location) (cmd : CommandPayload) : Call → Prop
  | .fs (.readDir _) | .fs (.openFile _) | .fs (.entries _) => True
  | .fs (.createDirAll path) => path = volumePath dispatcher cmd.serverId
  | .fs (.unpack _ path) => resolve cwd (volumePath dispatcher cmd.serverId) <+: resolve cwd path
  | .fs (.removeFile _) => cmd.action = .deleteBackup
  | _ => False

variable {dispatcher} {cwd : Location}

theorem handle_aside (codec : Base64) {cmd : CommandPayload} (command : BackupCommand serverId cmd)
    (other : cmd.action ≠ .backup) : (dispatcher.handle codec cmd).All (Aside dispatcher cwd cmd) := by
  have kind : cmd.action = .listBackups ∨ cmd.action = .restoreBackup ∨ cmd.action = .deleteBackup :=
    command.2.resolve_left other
  refine (dispatcher.handle_calls codec cmd).mono fun call may => ?_
  cases call with
  | fs operation =>
    cases may with
    | listBackups action => trivial
    | openArchive action given single => trivial
    | volume action given single => exact rfl
    | entries action given single => trivial
    | unpack action given single safe =>
      simp only [Core.isSafeRelativePath, Bool.and_eq_true] at safe
      change _ <+: resolve cwd (join _ _)
      rw [resolve_join, resolve_descends safe.2]
      exact List.prefix_append _ _
    | deleteBackup action given single => exact action
    | _ => rcases kind with kind | kind | kind <;> simp_all
  | runtime operation => cases operation <;> simp_all [Dispatcher.MayCall]
  | _ => rcases kind with kind | kind | kind <;> simp_all [Dispatcher.MayCall]

/-- What a command calls next. -/
def BackupRule (dispatcher : Dispatcher) (cwd : Location) (cmd : CommandPayload) (history : List DiskExchange)
    (call : Call) : Prop :=
  cmd.action = .backup ∧ BackupCall dispatcher cmd.serverId history call ∨
    cmd.action ≠ .backup ∧ Aside dispatcher cwd cmd call

/-- What a command has done once it ends. -/
def BackupOutcome (dispatcher : Dispatcher) (cmd : CommandPayload) (history : List DiskExchange)
    (ack : AckPayload) : Prop :=
  cmd.action = .backup → BackupDone dispatcher cmd.serverId history ack

theorem handle_backups (codec : Base64) {cmd : CommandPayload} (command : BackupCommand serverId cmd) :
    (dispatcher.handle codec cmd).Meets (BackupRule dispatcher cwd cmd) (BackupOutcome dispatcher cmd) [] := by
  by_cases action : cmd.action = .backup
  · refine Meets.mono (handle_backup_meets dispatcher codec action) ?_ ?_
    · exact fun _ _ call => .inl ⟨action, call⟩
    · exact fun _ _ done _ => done
  · have all : (dispatcher.handle codec cmd).All (Aside dispatcher cwd cmd) :=
      handle_aside serverId codec command action
    refine (all.meets (fun _ _ _ call => .inr ⟨action, call⟩) (by simp)).weaken ?_
    exact fun _ _ _ same => absurd same action

end Commands

/-! ## What happens to an archive -/

/-- The entry is a deletion of what stood at the location. -/
def Removes (cwd location : Location) (entry : Logged Disk CommandPayload Call Call.Response) : Prop :=
  entry.origin.action = .deleteBackup ∧
    ∃ path, entry.exchange = ⟨.fs (.removeFile path), .ok ()⟩ ∧ resolve cwd path = location

def reading (entry : Logged Disk CommandPayload Call Call.Response) : Option Nat :=
  match entry.exchange with
  | ⟨.now, secs⟩ => some secs
  | _ => none

/-- The seconds that were read, in the order of the run. -/
def readings (log : List (Logged Disk CommandPayload Call Call.Response)) : List Nat := log.filterMap reading

/-- Neither the volume stands inside an archive's place nor an archive inside the volume. -/
def Apart (dispatcher : Dispatcher) (cwd : Location) (serverId : String) : Prop :=
  ∀ name, ¬resolve cwd (volumePath dispatcher serverId) <+: resolve cwd (dispatcher.backupsDir serverId) ++ [name] ∧
    ¬resolve cwd (dispatcher.backupsDir serverId) ++ [name] <+: resolve cwd (volumePath dispatcher serverId)

section Archive
variable (dispatcher : Dispatcher) (archiver : Archiver) (cwd : Location) (serverId : String) (secs : Nat)

/-- The volume was walked in the run, and the archive holds what was found; or it is gone,
and if it was there when the command looked again, it was deleted after that. -/
def Saved (world : Disk) (log : List (Logged Disk CommandPayload Call Call.Response)) (index : Nat)
    (seen : Prop) : Prop :=
  ∃ before entry after, log = before ++ entry :: after ∧ entry.thread = index ∧
    entry.exchange = filled dispatcher serverId secs ∧
    ((∃ time, world.get (resolve cwd (archivePath dispatcher serverId secs)) = some (.file
        ⟨archiver.encode (archiver.walk entry.before (resolve cwd (volumePath dispatcher serverId))), time⟩)) ∨
      world.get (resolve cwd (archivePath dispatcher serverId secs)) = none ∧
        (seen → ∃ later ∈ after, Removes cwd (resolve cwd (archivePath dispatcher serverId secs)) later))

/-- A regular file, or nothing. -/
def FileOrNothing (disk : Disk) (location : Location) : Prop :=
  disk.get location = none ∨ ∃ data, disk.get location = some (.file data)

/-- What holds of the archive named after a second, by the history of its command. -/
structure Kept (world : Disk) (log : List (Logged Disk CommandPayload Call Call.Response)) (index : Nat)
    (history : List DiskExchange) : Prop where
  leaf : made dispatcher serverId secs ∈ history →
    FileOrNothing world (resolve cwd (archivePath dispatcher serverId secs))
  saved : filled dispatcher serverId secs ∈ history →
    Saved dispatcher archiver cwd serverId secs world log index
      (∃ metadata, measured dispatcher serverId secs metadata ∈ history)

variable {dispatcher archiver cwd serverId secs} {world after : Disk} {index : Nat} {history : List DiskExchange}
  {log : List (Logged Disk CommandPayload Call Call.Response)}

theorem Saved.same {seen seen' : Prop} (saved : Saved dispatcher archiver cwd serverId secs world log index seen)
    (entry : Logged Disk CommandPayload Call Call.Response)
    (same : after.get (resolve cwd (archivePath dispatcher serverId secs)) =
      world.get (resolve cwd (archivePath dispatcher serverId secs)))
    (seen : seen' → seen) : Saved dispatcher archiver cwd serverId secs after (log ++ [entry]) index seen' := by
  obtain ⟨before, own, rest, rfl, thread, exchange, state⟩ := saved
  refine ⟨before, own, rest ++ [entry], by simp, thread, exchange, ?_⟩
  rw [same]
  refine state.imp_right fun ⟨gone, deleted⟩ => ⟨gone, fun now => ?_⟩
  obtain ⟨later, member, removes⟩ := deleted (seen now)
  exact ⟨later, List.mem_append_left _ member, removes⟩

/-- A deletion takes the archive away. -/
theorem Saved.removed {seen : Prop} (saved : Saved dispatcher archiver cwd serverId secs world log index seen)
    {entry : Logged Disk CommandPayload Call Call.Response}
    (gone : after.get (resolve cwd (archivePath dispatcher serverId secs)) = none)
    (removes : Removes cwd (resolve cwd (archivePath dispatcher serverId secs)) entry) :
    Saved dispatcher archiver cwd serverId secs after (log ++ [entry]) index seen := by
  obtain ⟨before, own, rest, rfl, thread, exchange, -⟩ := saved
  refine ⟨before, own, rest ++ [entry], by simp, thread, exchange, .inr ⟨gone, fun _ => ?_⟩⟩
  exact ⟨entry, List.mem_append_right _ (List.mem_singleton_self _), removes⟩

/-- A step of another command leaves the archive alone or deletes it. -/
theorem Kept.other (kept : Kept dispatcher archiver cwd serverId secs world log index history)
    {entry : Logged Disk CommandPayload Call Call.Response}
    (effect : after.get (resolve cwd (archivePath dispatcher serverId secs)) =
        world.get (resolve cwd (archivePath dispatcher serverId secs)) ∨
      after.get (resolve cwd (archivePath dispatcher serverId secs)) = none ∧
        Removes cwd (resolve cwd (archivePath dispatcher serverId secs)) entry) :
    Kept dispatcher archiver cwd serverId secs after (log ++ [entry]) index history := by
  rcases effect with same | ⟨gone, removes⟩
  · refine ⟨fun created => ?_, fun written => (kept.saved written).same entry same id⟩
    rw [FileOrNothing, same]
    exact kept.leaf created
  · exact ⟨fun _ => .inl gone, fun written => (kept.saved written).removed gone removes⟩

theorem backupFilename_injective : Function.Injective Dispatcher.backupFilename := by
  intro secs secs' same
  have digits : "backup-" ++ toString secs = "backup-" ++ toString secs' := (String.append_left_inj _).mp same
  exact Nat.repr_injective ((String.append_right_inj _).mp digits)

theorem archive_inj (same : resolve cwd (archivePath dispatcher serverId secs) =
    resolve cwd (archivePath dispatcher serverId secs')) : secs = secs' := by
  rw [archivePath, archivePath, resolve_archive, resolve_archive] at same
  have names := congrArg Subtype.val (List.singleton_injective (List.append_cancel_left same))
  exact backupFilename_injective (Text.bytes_injective names)

/-- The command's own next step. -/
theorem Kept.own {call : Call} (choice : DiskChoice) (origin : CommandPayload)
    (kept : Kept dispatcher archiver cwd serverId secs world log index history)
    (calls : BackupCall dispatcher serverId history call) (read : timed secs ∈ history) :
    Kept dispatcher archiver cwd serverId secs (world.react archiver cwd choice call).2
      (log ++ [⟨index, origin, world, ⟨call, (world.react archiver cwd choice call).1⟩⟩]) index
      (history ++ [⟨call, (world.react archiver cwd choice call).1⟩]) := by
  cases calls with
  | led => contradiction
  | timed => simp [led, timed] at read
  | looked other =>
    refine ⟨fun created => ?_, fun written => ?_⟩
    · simp [led, timed, looked, made] at created
    · simp [led, timed, looked, filled] at written
  | made other =>
    have same : secs = other := by simpa [led, timed, looked] using read
    subst same
    rcases world.createFile_cases choice (archivePath dispatcher serverId secs)
      (resolve cwd (archivePath dispatcher serverId secs)) with ⟨error, refused⟩ | ⟨fits, -, created⟩
    · have answered : (world.react archiver cwd choice (made dispatcher serverId secs).1).1 = .error error :=
        congrArg Prod.fst refused
      rw [answered]
      refine ⟨fun created => ?_, fun written => ?_⟩
      · simp [led, timed, looked, made] at created
      · simp [led, timed, looked, made, filled] at written
    · have stored : (world.react archiver cwd choice (made dispatcher serverId secs).1).2 = _ :=
        congrArg Prod.snd created
      refine ⟨fun _ => .inr ⟨⟨[], choice.time⟩, ?_⟩, fun written => ?_⟩
      · rw [stored]
        exact FileSystem.get_put_self fits
      · simp [led, timed, looked, made, filled] at written
  | filled other =>
    have same : secs = other := by simpa [led, timed, looked, made] using read
    subst same
    have exchange {answer : Except IoError Unit} (written : filled dispatcher serverId secs ∈
        [led dispatcher serverId, timed secs, looked dispatcher serverId, made dispatcher serverId secs] ++
          [⟨(filled dispatcher serverId secs).1, answer⟩]) : answer = .ok () := by
      simpa [led, timed, looked, made, filled, eq_comm] using written
    rcases kept.leaf (by simp) with absent | ⟨data, present⟩
    · -- It was deleted meanwhile; what the call answers is open, but the disk stays as it is.
      have unseen : (world.react archiver cwd choice (filled dispatcher serverId secs).1).2 = world := by
        change (world.appendDirAll _ _ _ _ _ _).2 = _
        rw [Disk.appendDirAll, absent]
      rw [unseen]
      refine ⟨fun _ => .inl absent, fun written => ⟨log, _, [], rfl, rfl, ?_, .inr ⟨absent, ?_⟩⟩⟩
      · exact Sigma.ext rfl (heq_of_eq (exchange written))
      · rintro ⟨metadata, member⟩
        simp [led, timed, looked, made, filled, measured] at member
    · have isFile := (world.appendDirAll_only archiver choice (volumePath dispatcher serverId)
        (archivePath dispatcher serverId secs) (resolve cwd (volumePath dispatcher serverId)) _).2 data present
      refine ⟨fun _ => .inr isFile, fun written => ⟨log, _, [], rfl, rfl, ?_, .inl ⟨choice.time, ?_⟩⟩⟩
      · exact Sigma.ext rfl (heq_of_eq (exchange written))
      · have answered := exchange written
        rcases world.appendDirAll_cases archiver choice (volumePath dispatcher serverId)
          (archivePath dispatcher serverId secs) (resolve cwd (volumePath dispatcher serverId)) present with
          ⟨error, after, failed⟩ | whole
        · exact absurd (answered.symm.trans (congrArg Prod.fst failed)) (by simp)
        · have stored : (world.react archiver cwd choice (filled dispatcher serverId secs).1).2 = _ :=
            congrArg Prod.snd whole
          rw [stored]
          exact FileSystem.get_put_self (Disk.fits_file present _)
  | synced other =>
    have same : secs = other := by simpa [led, timed, looked, made, filled] using read
    subst same
    refine ⟨fun _ => kept.leaf (by simp), fun _ => (kept.saved (by simp)).same _ rfl ?_⟩
    rintro ⟨metadata, member⟩
    simp [led, timed, looked, made, filled, synced, measured] at member
  | measured other =>
    have same : secs = other := by simpa [led, timed, looked, made, filled, synced] using read
    subst same
    refine ⟨fun _ => kept.leaf (by simp), fun _ => ?_⟩
    obtain ⟨before, entry, rest, rfl, thread, exchange, state⟩ := kept.saved (by simp)
    refine ⟨before, entry, _, List.append_assoc .., thread, exchange, state.imp_right fun missing => ⟨missing.1, ?_⟩⟩
    -- A file that is gone has no metadata.
    obtain ⟨error, refused⟩ := Disk.metadata_absent choice (archivePath dispatcher serverId secs) missing.1
    have answered : (world.react archiver cwd choice (.fs (.metadata (archivePath dispatcher serverId secs)))).1 =
        .error error := refused
    rw [answered]
    rintro ⟨metadata, member⟩
    simp [led, timed, looked, made, filled, synced, measured] at member
  | told other metadata =>
    have same : secs = other := by simpa [led, timed, looked, made, filled, synced, measured] using read
    subst same
    refine ⟨fun _ => kept.leaf (by simp), fun _ => (kept.saved (by simp)).same _ rfl fun _ => ⟨metadata, by simp⟩⟩

/-- Nothing is made in the moment of reading the clock. -/
theorem Kept.of_timed {call : Call} {answer : call.Response} (calls : BackupCall dispatcher serverId history call)
    (read : timed secs = ⟨call, answer⟩) :
    Kept dispatcher archiver cwd serverId secs world log index (history ++ [⟨call, answer⟩]) := by
  rw [← read]
  cases read
  cases calls
  refine ⟨fun created => ?_, fun written => ?_⟩
  · simp [led, timed, made] at created
  · simp [led, timed, filled] at written

/-- A step of another command, which has read another second if any. -/
theorem BackupRule.effect {cmd : CommandPayload} {call : Call} (apart : Apart dispatcher cwd serverId)
    (own : cmd.serverId = serverId) (rule : BackupRule dispatcher cwd cmd history call)
    (distinct : timed secs ∉ history) (choice : DiskChoice) :
    (world.react archiver cwd choice call).2.get (resolve cwd (archivePath dispatcher serverId secs)) =
        world.get (resolve cwd (archivePath dispatcher serverId secs)) ∨
      (world.react archiver cwd choice call).2.get (resolve cwd (archivePath dispatcher serverId secs)) = none ∧
        Removes cwd (resolve cwd (archivePath dispatcher serverId secs))
          ⟨index, cmd, world, ⟨call, (world.react archiver cwd choice call).1⟩⟩ := by
  subst own
  have stands := resolve_archive cwd dispatcher cmd.serverId secs
  rcases rule with ⟨-, calls⟩ | ⟨-, aside⟩
  · -- Another backup makes and fills the archive of its own second.
    refine .inl (Disk.react_untouched archiver world choice fun touches => ?_)
    cases calls with
    | led =>
      have short := List.IsPrefix.length_le touches
      rw [archivePath, stands, List.length_append] at short
      simp at short
    | made other =>
      cases archive_inj touches
      simp at distinct
    | filled other =>
      cases archive_inj touches
      simp at distinct
    | timed => exact touches
    | looked other => exact touches
    | synced other => exact touches
    | measured other => exact touches
    | told other metadata => exact touches
  · cases call with
    | fs operation =>
      cases operation with
      | removeFile path =>
        by_cases here : resolve cwd path = resolve cwd (archivePath dispatcher cmd.serverId secs)
        · rcases world.removeFile_cases choice path (resolve cwd path) with ⟨error, refused⟩ | ⟨after, removed, -, gone⟩
          · have unchanged : (world.react archiver cwd choice (.fs (.removeFile path))).2 = world :=
              congrArg Prod.snd refused
            exact .inl (by rw [unchanged])
          · have taken : (world.react archiver cwd choice (.fs (.removeFile path))).2 = after :=
              congrArg Prod.snd removed
            refine .inr ⟨?_, aside, path, ?_, here⟩
            · rw [taken, ← here]
              exact gone
            · exact Sigma.ext rfl (heq_of_eq (congrArg Prod.fst removed))
        · exact .inl (Disk.react_untouched archiver world choice here)
      | createDirAll path =>
        refine .inl (Disk.react_untouched archiver world choice fun touches => ?_)
        cases aside
        rw [archivePath, Call.Touches, stands] at touches
        exact (apart _).2 touches
      | unpack entry path =>
        refine .inl (Disk.react_untouched archiver world choice fun touches => ?_)
        have below : resolve cwd (volumePath dispatcher cmd.serverId) <+: resolve cwd path := aside
        rw [show resolve cwd path = _ from touches, archivePath, stands] at below
        exact (apart _).1 below
      | readDir path => exact .inl rfl
      | openFile path => exact .inl rfl
      | entries archive => exact .inl rfl
      | _ => exact aside.elim
    | _ => exact aside.elim

end Archive

/-! ## Runs -/

theorem readings_distinct {log : List (Logged Disk CommandPayload Call Call.Response)}
    {first second : Logged Disk CommandPayload Call Call.Response} (distinct : (readings log).Nodup)
    (inFirst : first ∈ log) (inSecond : second ∈ log) (one : first.exchange = timed secs)
    (two : second.exchange = timed secs) : first = second := by
  by_contra different
  have : Std.Symm fun a b => ∀ x, reading a = some x → ∀ y, reading b = some y → x ≠ y :=
    ⟨fun _ _ apart x inX y inY => (apart y inY x inX).symm⟩
  have pairs := List.pairwise_filterMap.mp distinct
  exact pairs.forall inFirst inSecond different secs (by rw [reading, one]; rfl) secs (by rw [reading, two]; rfl) rfl

section Runs
variable (dispatcher : Dispatcher) (codec : Base64) (archiver : Archiver) (cwd : Location) (serverId : String)

/-- The runs of the server's backup commands. -/
abbrev BackupRun (disk : Disk) (events : List BackupEvent) (pool : BackupPool) : Prop :=
  Run (Pool.Steps (Disk.react archiver cwd) (dispatcher.handle codec) (BackupCommand serverId))
    (Pool.start disk) events pool

/-- What every run keeps: the commands follow their rules, and as long as the seconds that
were read are distinct, every archive is as its command left it. -/
structure BackupInvariant (pool : BackupPool) : Prop where
  sound : pool.Sound (BackupRule dispatcher cwd) (BackupOutcome dispatcher)
  commands : ∀ (i : Nat) thread, pool.threads[i]? = some thread → BackupCommand serverId thread.origin
  kept : (readings pool.log).Nodup → ∀ (i : Nat) thread, pool.threads[i]? = some thread →
    thread.origin.action = .backup → ∀ secs, timed secs ∈ thread.history →
    Kept dispatcher archiver cwd serverId secs pool.world pool.log i thread.history

variable {dispatcher codec archiver cwd serverId}

/-- Two commands have not read the same second. -/
theorem BackupInvariant.reader {pool : BackupPool} {index index' : Nat}
    {thread thread' : Thread CommandPayload Call Call.Response AckPayload}
    (invariant : BackupInvariant dispatcher archiver cwd serverId pool) (distinct : (readings pool.log).Nodup)
    (found : pool.threads[index]? = some thread) (read : timed secs ∈ thread.history)
    (found' : pool.threads[index']? = some thread') (read' : timed secs ∈ thread'.history) : index = index' := by
  obtain ⟨first, inLog, isFirst, firstRead⟩ := invariant.sound.logged index thread found _ read
  obtain ⟨second, inLog', isSecond, secondRead⟩ := invariant.sound.logged index' thread' found' _ read'
  rw [← isFirst, ← isSecond, readings_distinct distinct inLog inLog' firstRead secondRead]

theorem backupInvariant_spawn {pool : BackupPool} {cmd : CommandPayload} (command : BackupCommand serverId cmd)
    (invariant : BackupInvariant dispatcher archiver cwd serverId pool) :
    BackupInvariant dispatcher archiver cwd serverId (pool.spawn (dispatcher.handle codec) cmd) := by
  refine ⟨invariant.sound.spawn (handle_backups serverId codec command), ?_, ?_⟩
  · intro i thread found
    rcases Pool.spawn_threads found with old | rfl
    · exact invariant.commands i thread old
    · exact command
  · intro distinct i thread found action secs read
    rcases Pool.spawn_threads found with old | rfl
    · exact invariant.kept distinct i thread old action secs read
    · contradiction

theorem backupInvariant_resume {pool : BackupPool} {index : Nat}
    {thread : Thread CommandPayload Call Call.Response AckPayload}
    {call : Call} (apart : Apart dispatcher cwd serverId) (choice : DiskChoice)
    (next : call.Response → Program Call Call.Response AckPayload) (found : pool.threads[index]? = some thread)
    (waiting : thread.rest = .call call next)
    (invariant : BackupInvariant dispatcher archiver cwd serverId pool) :
    BackupInvariant dispatcher archiver cwd serverId
      (pool.resume (Disk.react archiver cwd) index choice thread call next) := by
  have rule := (invariant.sound.obeys index thread found).next waiting
  have command := invariant.commands index thread found
  refine ⟨invariant.sound.resume found waiting, ?_, ?_⟩
  · intro i other found'
    rcases Pool.resume_threads found' with ⟨-, old⟩ | ⟨-, rfl⟩
    · exact invariant.commands i other old
    · exact command
  · intro distinct i other found' action secs read
    have distinct' : (readings pool.log).Nodup := by
      rw [readings, Pool.resume, List.filterMap_append] at distinct
      exact (List.nodup_append.mp distinct).1
    rcases Pool.resume_threads found' with ⟨away, old⟩ | ⟨rfl, rfl⟩
    · have unread : timed secs ∉ thread.history :=
        fun member => away (invariant.reader distinct' old read found member)
      exact (invariant.kept distinct' i other old action secs read).other (rule.effect apart command.1 unread choice)
    · have calls : BackupCall dispatcher serverId thread.history call := by
        rcases rule with ⟨-, calls⟩ | ⟨other, -⟩
        · rwa [command.1] at calls
        · contradiction
      rcases List.mem_append.mp read with earlier | last
      · exact (invariant.kept distinct' i thread found action secs earlier).own choice thread.origin calls earlier
      · exact .of_timed calls (List.mem_singleton.mp last)

theorem backupRun_invariant {disk : Disk} {events : List BackupEvent} {pool : BackupPool}
    (apart : Apart dispatcher cwd serverId) (run : BackupRun dispatcher codec archiver cwd serverId disk events pool) :
    BackupInvariant dispatcher archiver cwd serverId pool := by
  refine Pool.run_invariant ?_ ?_ run ?_
  · exact fun pool cmd command invariant => backupInvariant_spawn command invariant
  · exact fun pool index choice thread call next found waiting invariant =>
      backupInvariant_resume apart choice next found waiting invariant
  · refine ⟨Pool.sound_start disk, ?_, ?_⟩
    · intro i thread found
      simp [Pool.start] at found
    · intro _ i thread found
      simp [Pool.start] at found

/-- The file name and the size that a backup has reported in its ack. -/
def reported (pool : BackupPool) (index : Nat) : Option (String × Nat) :=
  (pool.threads[index]?).bind fun thread =>
    match thread.origin.action, thread.rest with
    | .backup, .done ⟨_, true, _, some (.backup filename size)⟩ => some (filename, size)
    | _, _ => none

theorem BackupInvariant.of_reported {pool : BackupPool}
    (invariant : BackupInvariant dispatcher archiver cwd serverId pool)
    (acked : reported pool index = some (filename, size)) :
    ∃ thread secs metadata, pool.threads[index]? = some thread ∧ thread.origin.action = .backup ∧
      filename = Dispatcher.backupFilename secs ∧ timed secs ∈ thread.history ∧
      filled dispatcher serverId secs ∈ thread.history ∧
      measured dispatcher serverId secs metadata ∈ thread.history := by
  obtain ⟨thread, found, acked⟩ := Option.bind_eq_some_iff.mp acked
  split at acked
  · rename_i action ended
    obtain ⟨secs, metadata, history, result⟩ := (invariant.sound.obeys index thread found).ended ended action rfl
    cases acked
    cases result
    rw [(invariant.commands index thread found).1] at history
    refine ⟨thread, secs, metadata, found, action, rfl, ?_, ?_, ?_⟩ <;> simp [history]
  · contradiction

/-- As long as no two commands read the same second, an archive that a backup reported
holds the volume as that command walked it, until a deletion removes it; and two backups
never report the same name. -/
theorem reported_backup_kept {disk : Disk} {events : List BackupEvent} {pool : BackupPool}
    (apart : Apart dispatcher cwd serverId) (run : BackupRun dispatcher codec archiver cwd serverId disk events pool)
    (distinct : (readings pool.log).Nodup) :
    (∀ index filename size, reported pool index = some (filename, size) →
      ∃ before entry after, pool.log = before ++ entry :: after ∧ entry.thread = index ∧
        entry.exchange = ⟨.fs (.appendDirAll (volumePath dispatcher serverId)
          (join (dispatcher.backupsDir serverId) (Text.bytes filename))), .ok ()⟩ ∧
        ((∃ time, pool.world.get (resolve cwd (join (dispatcher.backupsDir serverId) (Text.bytes filename))) =
            some (.file ⟨archiver.encode
              (archiver.walk entry.before (resolve cwd (volumePath dispatcher serverId))), time⟩)) ∨
          ∃ later ∈ after,
            Removes cwd (resolve cwd (join (dispatcher.backupsDir serverId) (Text.bytes filename))) later)) ∧
    ∀ index filename size index' filename' size', reported pool index = some (filename, size) →
      reported pool index' = some (filename', size') → index ≠ index' → filename ≠ filename' := by
  have invariant := backupRun_invariant apart run
  constructor
  · intro index filename size acked
    obtain ⟨thread, secs, metadata, found, action, rfl, read, written, looked⟩ := invariant.of_reported acked
    obtain ⟨before, entry, after, split, own, exchange, state⟩ :=
      (invariant.kept distinct index thread found action secs read).saved written
    exact ⟨before, entry, after, split, own, exchange, state.imp_right fun ⟨_, deleted⟩ => deleted ⟨metadata, looked⟩⟩
  · intro index filename size index' filename' size' acked acked' different same
    obtain ⟨thread, secs, metadata, found, -, rfl, read, -⟩ := invariant.of_reported acked
    obtain ⟨thread', secs', metadata', found', -, rfl, read', -⟩ := invariant.of_reported acked'
    cases backupFilename_injective same
    exact different (invariant.reader distinct found read found' read')

theorem Apart.of_differ (level : Nat) (inVolume : level < (resolve cwd (volumePath dispatcher serverId)).length)
    (inBackups : level < (resolve cwd (dispatcher.backupsDir serverId)).length)
    (differ : (resolve cwd (volumePath dispatcher serverId))[level]? ≠
      (resolve cwd (dispatcher.backupsDir serverId))[level]?) : Apart dispatcher cwd serverId := by
  intro name
  constructor
  · rintro ⟨rest, same⟩
    apply differ
    rw [← List.getElem?_append_left inVolume, same, List.getElem?_append_left inBackups]
  · rintro ⟨rest, same⟩
    apply differ
    rw [← same, List.append_assoc, List.getElem?_append_left inBackups]

end Runs

/-- The first commands of a node of which the clock shows these seconds, one backup of server
`s1` after the other. -/
def backupsAt (seconds : List Nat) : List BackupEvent :=
  seconds.zipIdx.flatMap fun (secs, index) =>
    .receive (lifecycleCommand .backup "s1" none) :: List.replicate 8 (.advance index (.calm secs))

def sampleBackups (events : List BackupEvent) : Option BackupPool :=
  events.foldlM (Pool.step (Disk.react plainArchiver []) (Dispatcher.defaultDispatcher.handle Dispatcher.unusedCodec))
    (Pool.start Disk.sample)

theorem backupsAt_receive {seconds : List Nat} (member : .receive cmd ∈ backupsAt seconds) :
    cmd = lifecycleCommand .backup "s1" none := by
  obtain ⟨⟨secs, index⟩, -, event⟩ := List.mem_flatMap.mp member
  rcases List.mem_cons.mp event with same | later
  · cases same
    rfl
  · cases List.eq_of_mem_replicate later

/-- The backups up to some event. -/
theorem sampleBackups_run {pool : BackupPool} {seconds : List Nat}
    (folded : sampleBackups ((backupsAt seconds).take count) = some pool) :
    BackupRun Dispatcher.defaultDispatcher Dispatcher.unusedCodec plainArchiver [] "s1" Disk.sample
      ((backupsAt seconds).take count) pool := by
  refine Pool.run_of_foldlM folded fun cmd member => ?_
  rw [backupsAt_receive (List.mem_of_mem_take member)]
  exact ⟨rfl, .inl rfl⟩

/-- Two backups in different seconds. -/
theorem different_seconds_kept :
    ∃ pool, BackupRun Dispatcher.defaultDispatcher Dispatcher.unusedCodec plainArchiver [] "s1" Disk.sample
        ((backupsAt [5, 6]).take 18) pool ∧
      reported pool 0 = some ("backup-5.tar.zst", 61) ∧ reported pool 1 = some ("backup-6.tar.zst", 61) ∧
      ∃ before entry after, pool.log = before ++ entry :: after ∧ entry.thread = 0 ∧
        ((∃ time, pool.world.get (resolve [] (Text.bytes "/srv/sky-panel/backups/s1/backup-5.tar.zst")) =
            some (.file ⟨plainArchiver.encode (plainArchiver.walk entry.before
              (resolve [] (Text.bytes "/srv/sky-panel/volumes/s1"))), time⟩)) ∨
          ∃ later ∈ after,
            Removes [] (resolve [] (Text.bytes "/srv/sky-panel/backups/s1/backup-5.tar.zst")) later) := by
  have facts : (sampleBackups ((backupsAt [5, 6]).take 18)).any (fun pool =>
      decide (reported pool 0 = some ("backup-5.tar.zst", 61) ∧ reported pool 1 = some ("backup-6.tar.zst", 61) ∧
        (readings pool.log).Nodup)) = true := by decide +kernel
  obtain ⟨pool, folded, holds⟩ := (Option.any_eq_true _ _).mp facts
  obtain ⟨first, second, distinct⟩ := of_decide_eq_true holds
  have apart : Apart Dispatcher.defaultDispatcher [] "s1" :=
    .of_differ 2 (by decide +kernel) (by decide +kernel) (by decide +kernel)
  obtain ⟨before, entry, after, split, own, -, state⟩ :=
    (reported_backup_kept apart (sampleBackups_run folded) distinct).1 0 _ _ first
  exact ⟨pool, sampleBackups_run folded, first, second, before, entry, after, split, own, state⟩

/-- A second backup in the same second: as soon as it has made its file, the archive that the
first one reported is empty, and no command has deleted it; in the end both have reported the
same name. -/
theorem same_second_empties_archive :
    (∃ pool, BackupRun Dispatcher.defaultDispatcher Dispatcher.unusedCodec plainArchiver [] "s1" Disk.sample
        ((backupsAt [5, 5]).take 14) pool ∧
      reported pool 0 = some ("backup-5.tar.zst", 61) ∧
      pool.world.get (resolve [] (Text.bytes "/srv/sky-panel/backups/s1/backup-5.tar.zst")) =
        some (.file ⟨[], some 5⟩) ∧
      ∀ entry ∈ pool.log, entry.origin.action ≠ .deleteBackup) ∧
    ∃ pool, BackupRun Dispatcher.defaultDispatcher Dispatcher.unusedCodec plainArchiver [] "s1" Disk.sample
        ((backupsAt [5, 5]).take 18) pool ∧
      reported pool 0 = some ("backup-5.tar.zst", 61) ∧ reported pool 1 = some ("backup-5.tar.zst", 61) := by
  constructor
  · have facts : (sampleBackups ((backupsAt [5, 5]).take 14)).any (fun pool =>
        decide (reported pool 0 = some ("backup-5.tar.zst", 61) ∧
          pool.world.get (resolve [] (Text.bytes "/srv/sky-panel/backups/s1/backup-5.tar.zst")) =
            some (.file ⟨[], some 5⟩) ∧
          ∀ entry ∈ pool.log, entry.origin.action ≠ .deleteBackup)) = true := by decide +kernel
    obtain ⟨pool, folded, holds⟩ := (Option.any_eq_true _ _).mp facts
    exact ⟨pool, sampleBackups_run folded, of_decide_eq_true holds⟩
  · have facts : (sampleBackups ((backupsAt [5, 5]).take 18)).any (fun pool =>
        decide (reported pool 0 = some ("backup-5.tar.zst", 61) ∧
          reported pool 1 = some ("backup-5.tar.zst", 61))) = true := by decide +kernel
    obtain ⟨pool, folded, holds⟩ := (Option.any_eq_true _ _).mp facts
    exact ⟨pool, sampleBackups_run folded, of_decide_eq_true holds⟩

end SkyDaemon.Agent
