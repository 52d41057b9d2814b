import SkyDaemon.Foundation.Base64
import SkyDaemon.Agent.Restore

/-! What `write_file` puts on the disk is what `read_file` gives back, under any spelling of the
same path; content that is refused leaves no trace. -/
namespace SkyDaemon.Agent
open Protocol UnixPath Program

/-- Exactly the canonical texts are decoded, each to the bytes that it stands for. -/
def Base64.Canonical (codec : Base64) : Prop :=
  ∀ text content, codec.decode text = some content ↔ codec.encode content = text

/-- The standard engine. -/
def Base64.standard : Base64 where
  decode text := Base64Text.decode text.toList
  encode content := String.ofList (Base64Text.encode content)

theorem Base64.standard_canonical : Base64.standard.Canonical := by
  intro text content
  change Base64Text.decode text.toList = some content ↔ String.ofList (Base64Text.encode content) = text
  rw [Base64Text.decode_eq_some_iff, ← String.toList_inj, String.toList_ofList]

/-! ## Spellings of a path -/

/-- The components of a path but the empty ones and `.`. -/
def namedPieces (rel : String) : List (List Char) :=
  (rel.toList.splitOn '/').filter fun piece => piece ≠ [] ∧ piece ≠ ['.']

/-- The path ends neither in `/` nor in `/.`. -/
def endsProperly (rel : String) : Bool :=
  (rel.toList.splitOn '/').getLast?.any fun piece => piece ≠ [] ∧ piece ≠ ['.']

theorem names_of_namedPieces (down : descends (Text.bytes p) = true) (down' : descends (Text.bytes q) = true)
    (same : namedPieces p = namedPieces q) : names (Text.bytes p) = names (Text.bytes q) := by
  apply List.map_injective_iff.mpr Subtype.val_injective
  rw [Dispatcher.names_bytes down, Dispatcher.names_bytes down']
  exact congrArg (List.map _) same

theorem endsInName_bytes (down : descends (Text.bytes rel) = true) (proper : endsProperly rel = true) :
    endsInName (Text.bytes rel) = true := by
  obtain ⟨piece, last, stands⟩ := (Option.any_eq_true _ _).mp proper
  have stands : ¬skipped (Text.bytes (String.ofList piece)) = true := by
    rw [Dispatcher.skipped_bytes]
    simpa using stands
  have last' : (pieces (Text.bytes rel)).getLast? = some (Text.bytes (String.ofList piece)) := by
    rw [Dispatcher.pieces_bytes, List.getLast?_map, last]
    rfl
  have member := List.mem_of_getLast? last'
  have free := ((descends_iff_pieces _).mp down).2
  simp only [skipped, Bool.or_eq_true, beq_iff_eq, not_or] at stands
  rw [endsInName, last']
  exact decide_eq_true ⟨stands.1, stands.2, fun up => free (up ▸ member), pieces_free _ _ member⟩

namespace Dispatcher
variable (dispatcher : Dispatcher) (serverId : String)

/-- Where the path of a server leads. -/
def target (rel : String) : OsPath := join (join dispatcher.volumesRoot (Text.bytes serverId)) (Text.bytes rel)

theorem requiredPath_done {cmd : CommandPayload} {missing : String} (given : path = some rel)
    (down : descends (Text.bytes rel) = true) :
    dispatcher.requiredPath cmd path missing = done (dispatcher.target cmd.serverId rel) := by
  rw [requiredPath, given, required_some, done_bind, resolvePath, if_pos down]
  rfl

variable {dispatcher serverId}

theorem endsInName_target (down : descends (Text.bytes rel) = true) (proper : endsProperly rel = true) :
    endsInName (dispatcher.target serverId rel) = true := by
  rw [target, endsInName_join (descends_relative down)]
  exact endsInName_bytes down proper

theorem resolve_target (down : descends (Text.bytes rel) = true) (cwd : Location) :
    resolve cwd (dispatcher.target serverId rel) =
      resolve cwd (join dispatcher.volumesRoot (Text.bytes serverId)) ++ names (Text.bytes rel) := by
  rw [target, resolve_join, resolve_descends down]

end Dispatcher

/-! ## Writing -/

/-- The regular files are the same, that of one location apart. -/
def Disk.SameFiles (disk : Disk) (location : Location) (after : Disk) : Prop :=
  ∀ other, other ≠ location → ∀ data, after.get other = some (.file data) ↔ disk.get other = some (.file data)

theorem sameFiles_put {disk mid : Disk} (leads : disk.Leads up mid) (location : Location) (data : FileData) :
    disk.SameFiles location (mid.put location (.file data)) := by
  intro other away found
  rw [FileSystem.get_put_ne mid _ away]
  rcases leads other with same | ⟨absent, directory, -⟩
  · rw [same]
  · rw [absent, directory]
    simp

section Run
variable {archiver : Archiver} {cwd : Location} {codec : Base64} {path : OsPath} {course after : DiskCourse}

/-- A write that succeeds has made the parent's directories, where there is one, and then its file. -/
theorem writeFile_ok (ran : (writeFile codec path encoded).execute (Disk.react archiver cwd) course = (.ok (), after)) :
    ∃ content, codec.decode encoded = some content ∧ content.length ≤ maxFileBytes ∧
      ∃ up : Location, ∃ mid : DiskCourse, course.world.Leads up mid.world ∧
        (fs (.write path content) >>= context "write file").execute (Disk.react archiver cwd) mid =
          (.ok (), after) := by
  unfold writeFile at ran
  cases decoded : codec.decode encoded with
  | none =>
    rw [decoded] at ran
    cases ran
  | some content =>
    simp only [decoded, required_some, done_bind] at ran
    split at ran
    · cases ran
    · rename_i small
      refine ⟨content, rfl, Nat.le_of_not_gt small, ?_⟩
      cases above : parent path with
      | none =>
        rw [above] at ran
        exact ⟨[], course, .refl _ _, ran⟩
      | some up =>
        rw [above] at ran
        refine ⟨resolve cwd up, course.after (Disk.react archiver cwd) (.fs (.createDirAll up)),
          course.world.createDirAll_leads (course.coming 0) _ _, ?_⟩
        dsimp only at ran
        rw [fs, execute_perform_bind] at ran
        cases answered : course.answer (Disk.react archiver cwd) (.fs (.createDirAll up)) with
        | error error =>
          rw [answered] at ran
          cases ran
        | ok _ =>
          rw [answered] at ran
          exact ran

/-- Content that does not decode or is too large is refused before any call. -/
theorem writeFile_refused (archiver : Archiver) (cwd : Location) (path : OsPath) (course : DiskCourse)
    (refused : ∀ content, codec.decode encoded = some content → maxFileBytes < content.length) :
    ∃ message, (writeFile codec path encoded).execute (Disk.react archiver cwd) course = (.error message, course) := by
  unfold writeFile
  cases decoded : codec.decode encoded with
  | none => exact ⟨_, rfl⟩
  | some content =>
    simp only [required_some, done_bind, gt_iff_lt, refused content decoded, if_true]
    exact ⟨_, rfl⟩

theorem write_ok {disk after : Disk} {choice : DiskChoice} {location : Location}
    (written : disk.write choice path location content = (.ok (), after)) :
    endsInName path = true ∧ disk.Fits location (.file ⟨content, choice.time⟩) ∧
      after = disk.put location (.file ⟨content, choice.time⟩) := by
  unfold Disk.write at written
  split at written
  · rcases disk.store_cases path location ⟨content, choice.time⟩ with ⟨error, failed⟩ | ⟨fits, named, stored⟩
    · cases failed.symm.trans written
    · exact ⟨named, fits, (congrArg Prod.snd (stored.symm.trans written)).symm⟩
  · cases written
  · cases written

theorem writeFile_stores
    (ran : (writeFile codec path encoded).execute (Disk.react archiver cwd) course = (.ok (), after)) :
    ∃ content time, codec.decode encoded = some content ∧ content.length ≤ maxFileBytes ∧
      after.world.get (resolve cwd path) = some (.file ⟨content, time⟩) ∧
      course.world.SameFiles (resolve cwd path) after.world := by
  obtain ⟨content, decoded, small, up, mid, leads, ran⟩ := writeFile_ok ran
  rcases wrote : mid.world.write (mid.coming 0) path (resolve cwd path) content with ⟨error | done, written⟩
  · have reacted : Disk.react archiver cwd mid.world (mid.coming 0) (.fs (.write path content)) =
      (.error error, written) := wrote
    rw [fs, (execute_reacted _ reacted).1] at ran
    cases ran
  · have reacted : Disk.react archiver cwd mid.world (mid.coming 0) (.fs (.write path content)) =
      (.ok done, written) := wrote
    obtain ⟨goesOn, world⟩ := execute_reacted (context "write file") reacted
    rw [fs, goesOn] at ran
    cases ran
    obtain ⟨-, fits, stored⟩ := write_ok wrote
    refine ⟨content, (mid.coming 0).time, decoded, small, ?_, ?_⟩
    · rw [world, stored]
      exact FileSystem.get_put_self fits
    · rw [world, stored]
      exact sameFiles_put leads _ _

theorem readFile_returns (archiver : Archiver) (codec : Base64) {data : FileData} (calm : Calm course)
    (present : course.world.get (resolve cwd path) = some (.file data)) (named : endsInName path = true)
    (small : data.content.length ≤ maxFileBytes) :
    ∃ after, (readFile codec path).execute (Disk.react archiver cwd) course =
        (.ok (.readFile (codec.encode data.content) data.content.length), after) ∧ after.world = course.world := by
  have looked : Disk.react archiver cwd course.world (course.coming 0) (.fs (.metadata path)) = (.ok _, course.world) :=
    congrArg (·, course.world) (metadata_ok (calm 0) present named)
  have read : course.world.read (course.coming 1) path (resolve cwd path) = .ok data.content := by
    rw [Disk.read, calm 1, present]
    exact if_pos named
  let mid := course.after (Disk.react archiver cwd) (.fs (.metadata path))
  have taken : Disk.react archiver cwd mid.world (mid.coming 0) (.fs (.read path)) = (.ok data.content, course.world) :=
    congrArg (·, course.world) read
  refine ⟨mid.after (Disk.react archiver cwd) (.fs (.read path)), ?_, congrArg Prod.snd taken⟩
  rw [readFile, fs, (execute_reacted _ looked).1, context, done_bind, if_neg (Nat.not_lt.mpr small), fs,
    (execute_reacted _ taken).1]
  rfl

end Run

/-! ## The commands -/

namespace Dispatcher
variable (dispatcher : Dispatcher) (codec : Base64) {cmd : CommandPayload}

theorem handleInner_writeFile (action : cmd.action = .writeFile) (given : cmd.path = some rel)
    (down : descends (Text.bytes rel) = true) (content : cmd.contentBase64 = some encoded) :
    dispatcher.handleInner codec cmd =
      writeFile codec (dispatcher.target cmd.serverId rel) encoded >>= fun _ => pure none := by
  simp only [handleInner, action]
  rw [dispatcher.requiredPath_done given down, done_bind, content, required_some, done_bind]

theorem handleInner_readFile (action : cmd.action = .readFile) (given : cmd.path = some rel)
    (down : descends (Text.bytes rel) = true) :
    dispatcher.handleInner codec cmd =
      readFile codec (dispatcher.target cmd.serverId rel) >>= fun result => pure (some result) := by
  simp only [handleInner, action]
  rw [dispatcher.requiredPath_done given down, done_bind]

end Dispatcher

/-- Two commands for one server: a write of `encoded` to `p` and a read of `q`, both paths accepted,
with the same names on them and a name at their end. -/
structure RoundTrip (dispatcher : Dispatcher) (write read : CommandPayload) (p q encoded : String) : Prop where
  writes : write.action = .writeFile
  reads : read.action = .readFile
  server : read.serverId = write.serverId
  path : write.path = some p
  path' : read.path = some q
  content : write.contentBase64 = some encoded
  accepted : ∃ resolved, dispatcher.resolvePath write.serverId p = .ok resolved
  accepted' : ∃ resolved, dispatcher.resolvePath write.serverId q = .ok resolved
  same : namedPieces p = namedPieces q
  proper : endsProperly p = true
  proper' : endsProperly q = true

/-- A write that is acked as done gives its content to the read that follows it and leaves every
other regular file alone. Content that does not decode, or to more than the limit, is refused with
the whole course as it was: no call was made. -/
theorem write_then_read {codec : Base64} (canonical : codec.Canonical) {dispatcher : Dispatcher}
    {write read : CommandPayload} {p q encoded : String} (trip : RoundTrip dispatcher write read p q encoded)
    (archiver : Archiver) (cwd : Location) (course : DiskCourse) :
    (∀ ack mid, (dispatcher.handle codec write).execute (Disk.react archiver cwd) course = (.ok ack, mid) →
      ack.ok = true → ∃ content, codec.decode encoded = some content ∧
        (Calm mid → ∃ after, (dispatcher.handle codec read).execute (Disk.react archiver cwd) mid =
            (.ok ⟨read.commandId, true, none, some (.readFile encoded content.length)⟩, after) ∧
          after.world = mid.world) ∧
        course.world.SameFiles (resolve cwd (dispatcher.target write.serverId p)) mid.world) ∧
    (codec.decode encoded = none ∨ (∃ content, codec.decode encoded = some content ∧ maxFileBytes < content.length) →
      ∃ ack, (dispatcher.handle codec write).execute (Disk.react archiver cwd) course = (.ok ack, course) ∧
        ack.ok = false) := by
  have down := (dispatcher.resolvePath_ok_iff write.serverId p).mp trip.accepted
  have down' := (dispatcher.resolvePath_ok_iff write.serverId q).mp trip.accepted'
  have writes := dispatcher.handleInner_writeFile codec trip.writes trip.path down trip.content
  have leads : resolve cwd (dispatcher.target read.serverId q) = resolve cwd (dispatcher.target write.serverId p) := by
    rw [trip.server, Dispatcher.resolve_target down, Dispatcher.resolve_target down',
      names_of_namedPieces down down' trip.same]
  constructor
  · intro ack mid handled ok
    rw [dispatcher.handle_run codec write, writes, execute_bind_pure] at handled
    rcases ran : (writeFile codec (dispatcher.target write.serverId p) encoded).execute (Disk.react archiver cwd) course
      with ⟨message | done, ended⟩
    · rw [ran] at handled
      cases handled
      contradiction
    · rw [ran] at handled
      dsimp only at handled
      cases handled
      obtain ⟨content, time, decoded, small, stored, others⟩ := writeFile_stores ran
      refine ⟨content, decoded, fun calm => ?_, others⟩
      rw [← leads] at stored
      obtain ⟨after, ran, kept⟩ := readFile_returns archiver codec calm stored
        (Dispatcher.endsInName_target down' trip.proper') small
      refine ⟨after, ?_, kept⟩
      rw [dispatcher.handle_run codec read, dispatcher.handleInner_readFile codec trip.reads trip.path' down',
        execute_bind_ok ran, (canonical encoded content).mp decoded]
      rfl
  · intro bad
    have refused : ∀ content, codec.decode encoded = some content → maxFileBytes < content.length := by
      rintro content decoded
      rcases bad with none | ⟨large, decoded', long⟩
      · cases none.symm.trans decoded
      · cases decoded'.symm.trans decoded
        exact long
    obtain ⟨message, failed⟩ := writeFile_refused archiver cwd (dispatcher.target write.serverId p) course refused
    refine ⟨⟨write.commandId, false, some message, none⟩, ?_, rfl⟩
    rw [dispatcher.handle_run codec write, writes, execute_bind_pure, failed]
    rfl

theorem Calm.execute {course : DiskCourse} (calm : Calm course) (react : Reaction Disk DiskChoice Call Call.Response)
    (program : Task α) : Calm (program.execute react course).2 := by
  induction program generalizing course with
  | done value => exact calm
  | fail message => exact calm
  | call c next ih => exact ih _ (calm.after react c)

def sampleWrite : CommandPayload :=
  { lifecycleCommand .writeFile "s1" none with path := some "conf/./motd.txt", contentBase64 := some "SGk=" }

def sampleRead : CommandPayload := { lifecycleCommand .readFile "s1" none with path := some "./conf//motd.txt" }

/-- Two bytes in a directory that is made for them, read back under another spelling. -/
theorem sample_file_read_back :
    ∃ mid after, (Dispatcher.defaultDispatcher.handle .standard sampleWrite).execute (Disk.react plainArchiver [])
        (.start Disk.sample fun _ => .calm 5) = (.ok ⟨"cmd-1", true, none, none⟩, mid) ∧
      (Dispatcher.defaultDispatcher.handle .standard sampleRead).execute (Disk.react plainArchiver []) mid =
        (.ok ⟨"cmd-1", true, none, some (.readFile "SGk=" 2)⟩, after) := by
  have trip : RoundTrip Dispatcher.defaultDispatcher sampleWrite sampleRead "conf/./motd.txt" "./conf//motd.txt"
      "SGk=" :=
    ⟨rfl, rfl, rfl, rfl, rfl, rfl, ⟨_, rfl⟩, ⟨_, rfl⟩, by decide +kernel, by decide +kernel, by decide +kernel⟩
  have calm : Calm (.start Disk.sample fun _ => .calm 5) := fun _ => rfl
  have acked : ((Dispatcher.defaultDispatcher.handle .standard sampleWrite).execute (Disk.react plainArchiver [])
      (.start Disk.sample fun _ => .calm 5)).1 = .ok ⟨"cmd-1", true, none, none⟩ := by decide +kernel
  have calm' := calm.execute (Disk.react plainArchiver [])
    (Dispatcher.defaultDispatcher.handle .standard sampleWrite)
  rcases ran : (Dispatcher.defaultDispatcher.handle .standard sampleWrite).execute (Disk.react plainArchiver [])
    (.start Disk.sample fun _ => .calm 5) with ⟨result, mid⟩
  rw [ran] at acked calm'
  cases acked
  have decoded : Base64.standard.decode "SGk=" = some [72, 105] := by decide +kernel
  obtain ⟨content, same, reads, -⟩ :=
    (write_then_read Base64.standard_canonical trip plainArchiver [] _).1 _ _ ran rfl
  cases decoded.symm.trans same
  obtain ⟨after, read, -⟩ := reads calm'
  exact ⟨mid, after, rfl, read⟩

end SkyDaemon.Agent
