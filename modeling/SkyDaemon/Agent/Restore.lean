import SkyDaemon.Agent.BackupFailure

/-! Making an archive of a directory and restoring it. The entries come in the order of the
walk, each directory before its contents, so that every entry finds its parent in place. -/
namespace SkyDaemon.Agent
open UnixPath Program

/-- Kind and contents of what stands at a location. -/
def shown (disk : Disk) (location : Location) : Option ArchiveNode := (disk.get location).map archived

/-- A tree of directories and regular files. -/
structure Snapshot where
  node : Location → Option ArchiveNode
  root : node [] = some .directory
  closed : ∀ rel name, (node (rel ++ [name])).isSome = true → node rel = some .directory
  regular : ∀ rel, node rel ≠ some .other

theorem archived_directory : archived node = .directory ↔ node.isDirectory = true := by
  cases node <;> simp [archived, Node.isDirectory]

theorem shown_directory {disk : Disk} : shown disk location = some .directory ↔ disk.isDir location = true := by
  unfold shown FileSystem.isDir
  cases disk.get location with
  | none => simp
  | some node => simp [archived_directory]

def Disk.snapshot (disk : Disk) (root : Location) (inside : disk.isDir root = true) (regular : Regular disk root) :
    Snapshot where
  node rel := shown disk (root ++ rel)
  root := by
    rw [List.append_nil]
    exact shown_directory.mpr inside
  closed rel name present := by
    rw [shown, Option.isSome_map] at present
    refine shown_directory.mpr (disk.isDir_above ?_ (List.cons_ne_nil name []))
    rwa [List.append_assoc]
  regular rel := by
    have plain := regular rel
    unfold shown
    cases found : disk.get (root ++ rel) with
    | none => simp
    | some node =>
      cases node with
      | special => exact absurd found plain
      | _ => simp [archived]

/-- The tree stands at the destination, and everything else is as it was; the directories
above the destination are there. -/
structure Overlays (disk : Disk) (dest : Location) (snapshot : Snapshot) (after : Disk) : Prop where
  present : ∀ rel node, snapshot.node rel = some node → shown after (dest ++ rel) = some node
  others : ∀ location, ¬location <+: dest → (∀ rel, location = dest ++ rel → snapshot.node rel = none) →
    after.get location = disk.get location
  above : ∀ location, location <+: dest → after.isDir location = true

/-- No directory stands in the place of a file, and no file in the place of a directory. -/
def NoConflict (disk : Disk) (dest : Location) (snapshot : Snapshot) : Prop :=
  ∀ rel there node, disk.get (dest ++ rel) = some there → snapshot.node rel = some node →
    (there.isDirectory = true ↔ node = .directory)

namespace Overlays
variable {disk after again : Disk} {dest : Location} {snapshot : Snapshot}

theorem others_below (overlays : Overlays disk dest snapshot after) (absent : snapshot.node rel = none) :
    after.get (dest ++ rel) = disk.get (dest ++ rel) := by
  refine overlays.others _ (fun above => ?_) fun rel' same => ?_
  · obtain ⟨rest, same⟩ := above
    have empty : rel = [] := by
      have := congrArg List.length same
      simp only [List.length_append] at this
      exact List.eq_nil_of_length_eq_zero (by omega)
    rw [empty, snapshot.root] at absent
    contradiction
  · rw [← List.append_cancel_left same]
    exact absent

/-- Where nothing was, the tree alone is. -/
theorem reproduces (overlays : Overlays disk dest snapshot after)
    (vacant : ∀ rel, rel ≠ [] → disk.get (dest ++ rel) = none) (rel : Location) :
    shown after (dest ++ rel) = snapshot.node rel := by
  cases found : snapshot.node rel with
  | some node => exact overlays.present rel node found
  | none =>
    have deeper : rel ≠ [] := by
      rintro rfl
      rw [snapshot.root] at found
      contradiction
    rw [shown, overlays.others_below found, vacant rel deeper]
    rfl

theorem noConflict (overlays : Overlays disk dest snapshot after) : NoConflict after dest snapshot := by
  intro rel there node found wanted
  have same := overlays.present rel node wanted
  rw [shown, found, Option.map_some, Option.some.injEq] at same
  rw [← same, archived_directory]

/-- Putting the tree there a second time changes nothing. -/
theorem idempotent (overlays : Overlays disk dest snapshot after) (twice : Overlays after dest snapshot again)
    (location : Location) : shown again location = shown after location := by
  by_cases above : location <+: dest
  · rw [shown_directory.mpr (overlays.above _ above), shown_directory.mpr (twice.above _ above)]
  · by_cases inside : ∃ rel node, location = dest ++ rel ∧ snapshot.node rel = some node
    · obtain ⟨rel, node, rfl, wanted⟩ := inside
      rw [overlays.present rel node wanted, twice.present rel node wanted]
    · have untouched : ∀ rel, location = dest ++ rel → snapshot.node rel = none := by
        intro rel same
        rw [Option.eq_none_iff_forall_not_mem]
        exact fun node wanted => inside ⟨rel, node, same, wanted⟩
      rw [shown, shown, twice.others location above untouched]

end Overlays

/-! ## Runs without a fault -/

def Calm (course : DiskCourse) : Prop := ∀ n, (course.coming n).fault = none

theorem Calm.after {course : DiskCourse} (calm : Calm course) (react : Reaction Disk DiskChoice Call Call.Response)
    (call : Call) : Calm (course.after react call) := fun n => calm (n + 1)

/-- A regular file can be made or overwritten under the path. -/
structure Writable (disk : Disk) (path : OsPath) (location : Location) : Prop where
  named : endsInName path = true
  inside : disk.isDir location.dropLast = true
  free : disk.get location = none ∨ ∃ data, disk.get location = some (.file data)

theorem Writable.leaf {disk : Disk} (writable : Writable disk path location) : disk.isDir location = false := by
  unfold FileSystem.isDir
  rcases writable.free with absent | ⟨data, present⟩
  · rw [absent]
    rfl
  · rw [present]
    rfl

theorem Writable.apart {disk : Disk} (writable : Writable disk path location) (inside : disk.isDir other = true) :
    other ≠ location := by
  rintro rfl
  rw [writable.leaf] at inside
  contradiction

theorem endsInName_ne_nil (named : endsInName path = true) : path ≠ [] := by
  rintro rfl
  exact absurd named (by decide)

section Calls
variable {disk : Disk} {choice : DiskChoice} {location : Location} (calm : choice.fault = none)
include calm

theorem isDirAt_ok (named : path ≠ []) (inside : disk.isDir location = true) :
    disk.isDirAt choice path location = true := by
  rw [Disk.isDirAt, calm, inside, bne_iff_ne.mpr named]
  rfl

theorem createFile_ok (writable : Writable disk path location) :
    disk.Fits location (.file ⟨[], choice.time⟩) ∧
      disk.createFile choice path location = (.ok (), disk.put location (.file ⟨[], choice.time⟩)) := by
  obtain ⟨named, inside, free⟩ := id writable
  constructor
  · have root : disk.isDir [] = true := FileSystem.isDir_iff.mpr disk.get_root
    exact ⟨(writable.apart root).symm, inside, .inr writable.leaf⟩
  · rw [Disk.createFile, calm]
    dsimp only
    rw [Disk.store, named, Bool.not_true, if_neg Bool.false_ne_true]
    rcases free with absent | ⟨old, present⟩
    · rw [absent]
      exact if_pos inside
    · rw [present]
      exact if_pos inside

theorem appendDirAll_ok (archiver : Archiver) (archive : OsPath) (present : disk.get location = some (.file data))
    (named : source ≠ []) (inside : disk.isDir volume = true) :
    disk.appendDirAll archiver choice source archive volume location =
      (.ok (), disk.put location (.file ⟨archiver.encode (archiver.walk disk volume), choice.time⟩)) := by
  rw [Disk.appendDirAll, present, calm, inside, bne_iff_ne.mpr named]
  rfl

theorem metadata_ok (present : disk.get location = some (.file data)) (named : endsInName path = true) :
    disk.metadata choice path location = .ok ⟨false, true, data.content.length, data.modified⟩ := by
  rw [Disk.metadata, calm, present]
  dsimp only
  rw [if_neg (endsInName_ne_nil named), named]
  rfl

theorem openFile_ok (present : disk.get location = some (.file data)) (named : endsInName path = true) :
    disk.openFile choice path location = .ok () := by
  rw [Disk.openFile, calm, present]
  exact if_pos named

theorem entries_ok (archiver : Archiver) (present : disk.get location = some (.file data)) :
    disk.entries archiver choice archive location = archiver.decode data.content := by
  rw [Disk.entries, calm, present]

/-- The directory is there, or nothing but directories is on the way to it. -/
def Reachable (disk : Disk) (path : OsPath) (location : Location) : Prop :=
  disk.isDir location = true ∨
    path ≠ [] ∧ ∀ front, front <+: location → disk.get front = none ∨ disk.isDir front = true

theorem createDirAll_ok (reachable : Reachable disk path location) :
    ∃ after, disk.createDirAll choice path location = (.ok (), after) ∧ disk.Leads location after ∧
      after.isDir location = true := by
  have root : disk.isDir [] = true := FileSystem.isDir_iff.mpr disk.get_root
  unfold Disk.createDirAll
  by_cases empty : path = []
  · rw [if_pos empty]
    exact ⟨disk, rfl, .refl _ _, reachable.resolve_right fun ⟨named, _⟩ => named empty⟩
  · have clear : ∀ front, front <+: location → disk.get ([] ++ front) = none ∨ disk.isDir ([] ++ front) = true := by
      rintro front ⟨rest, rfl⟩
      rw [List.nil_append]
      rcases reachable with inside | ⟨-, clear⟩
      · refine .inr ?_
        by_cases whole : rest = []
        · rwa [whole, List.append_nil] at inside
        · exact disk.isDir_above (by rw [FileSystem.isDir_iff.mp inside]; rfl) whole
      · exact clear front (List.prefix_append _ _)
    have made := FileSystem.makeDirs_ok root location (Nat.le_refl _) clear
    obtain ⟨leads, reached⟩ := FileSystem.makeDirs_leads root location location.length
    rw [List.nil_append] at leads reached
    rw [if_neg empty, calm]
    rcases ran : disk.makeDirs [] location location.length with ⟨complete, after⟩
    rw [ran] at made leads reached
    cases made
    exact ⟨after, rfl, leads, reached rfl⟩

end Calls

section Run
variable (archiver : Archiver) (cwd : Location)

/-- The archive holds the walk of the directory as it was once the archive's file was made. -/
theorem core_createBackup_ok {source archive : OsPath} {course : DiskCourse}
    (calm : Calm course) (named : source ≠ []) (inside : course.world.isDir (resolve cwd source) = true)
    (writable : Writable course.world archive (resolve cwd archive)) :
    ∃ content made mid time time',
      (Core.createBackup source archive).execute (Disk.react archiver cwd) course = (.ok content.length, made) ∧
      course.world.Only (resolve cwd archive) mid ∧ mid.get (resolve cwd archive) = some (.file ⟨[], time⟩) ∧
      mid.Only (resolve cwd archive) made.world ∧
      content = archiver.encode (archiver.walk mid (resolve cwd source)) ∧
      made.world.get (resolve cwd archive) = some (.file ⟨content, time'⟩) := by
  let react := Disk.react archiver cwd
  let first := course.after react (.fs (.isDir source))
  let second := first.after react (.fs (.createFile archive))
  let third := second.after react (.fs (.appendDirAll source archive))
  let fourth := third.after react (.fs (.syncAll archive))
  obtain ⟨fits, created⟩ := createFile_ok (calm 1) writable
  have made : second.world = course.world.put (resolve cwd archive) (.file ⟨[], (course.coming 1).time⟩) :=
    congrArg Prod.snd created
  have present : second.world.get (resolve cwd archive) = some (.file ⟨[], (course.coming 1).time⟩) := by
    rw [made]
    exact FileSystem.get_put_self fits
  have only : course.world.Only (resolve cwd archive) second.world := by
    rw [made]
    exact .put _ _ _
  have inside' : second.world.isDir (resolve cwd source) = true := by
    rw [FileSystem.isDir_iff] at inside ⊢
    rw [only _ (writable.apart (FileSystem.isDir_iff.mpr inside)), inside]
  have filled := appendDirAll_ok (calm 2) archiver archive present named inside'
  have written : third.world = second.world.put (resolve cwd archive) (.file
      ⟨archiver.encode (archiver.walk second.world (resolve cwd source)), (course.coming 2).time⟩) :=
    congrArg Prod.snd filled
  have holds : third.world.get (resolve cwd archive) = some (.file
      ⟨archiver.encode (archiver.walk second.world (resolve cwd source)), (course.coming 2).time⟩) := by
    rw [written]
    exact FileSystem.get_put_self (Disk.fits_file present _)
  have only' : second.world.Only (resolve cwd archive) third.world := by
    rw [written]
    exact .put _ _ _
  -- the calls in their order
  have looked : react course.world (course.coming 0) (.fs (.isDir source)) = (true, course.world) :=
    congrArg (·, course.world) (isDirAt_ok (calm 0) named inside)
  have synced : react third.world (third.coming 0) (.fs (.syncAll archive)) = (.ok (), third.world) := by
    have silent : (third.coming 0).fault = none := calm 3
    dsimp only [react, Disk.react]
    rw [Disk.perform, silent]
  have measured : react fourth.world (fourth.coming 0) (.fs (.metadata archive)) = (.ok _, fourth.world) :=
    congrArg (·, fourth.world) (metadata_ok (calm 4) holds writable.named)
  have ran : (Core.createBackup source archive).execute react course =
      (.ok (archiver.encode (archiver.walk second.world (resolve cwd source))).length,
        fourth.after react (.fs (.metadata archive))) := by
    rw [Core.createBackup, fs, (execute_reacted _ looked).1, Bool.not_true, if_neg Bool.false_ne_true]
    rw [fs, (execute_reacted _ created).1, ofIo, done_bind, fs, (execute_reacted _ filled).1, ofIo, done_bind,
      fs, (execute_reacted _ synced).1, ofIo, done_bind, fs, (execute_reacted _ measured).1]
    rfl
  exact ⟨_, _, second.world, _, _, ran, only, present, only', rfl, holds⟩

end Run

/-! ## Unpacking -/

theorem settle_ok {disk : Disk} {node : Node FileData} (inside : disk.isDir location.dropLast = true)
    (nonroot : location ≠ []) (leaf : node.isDirectory = true ∨ disk.isDir location = false) :
    ∃ after, Disk.place.settle disk location node = (.ok (), after) ∧ disk.Only location after ∧
      shown after location = some (archived node) := by
  refine ⟨_, if_pos inside, .put _ _ _, ?_⟩
  rw [shown, FileSystem.get_put_self ⟨nonroot, inside, leaf⟩]
  rfl

/-- An entry whose parent is there and that meets nothing of another kind. -/
theorem place_ok {disk : Disk} {path : OsPath} {node : ArchiveNode} (time : Option Nat)
    (inside : disk.isDir location.dropLast = true)
    (alike : ∀ there, disk.get location = some there → (there.isDirectory = true ↔ node = .directory))
    (plain : node ≠ .other) (ends : node ≠ .directory → endsInName path = true) :
    ∃ after, disk.place path location time node = (.ok (), after) ∧ disk.Only location after ∧
      shown after location = some node := by
  cases node with
  | directory =>
    cases found : disk.get location with
    | none =>
      have nonroot : location ≠ [] := by
        rintro rfl
        rw [disk.get_root] at found
        contradiction
      unfold Disk.place
      rw [found]
      exact settle_ok inside nonroot (.inl rfl)
    | some there =>
      have directory := (alike there found).mpr rfl
      cases there with
      | directory =>
        unfold Disk.place
        rw [found]
        exact ⟨disk, rfl, .refl _ _, by rw [shown, found]; rfl⟩
      | file data => contradiction
      | special => contradiction
  | file content =>
    have leaf : disk.isDir location = false := by
      rw [← Bool.not_eq_true]
      intro directory
      exact absurd ((alike _ (FileSystem.isDir_iff.mp directory)).mp rfl) (by simp)
    have nonroot : location ≠ [] := by
      rintro rfl
      rw [FileSystem.isDir_iff.mpr disk.get_root] at leaf
      contradiction
    have placed : disk.place path location time (.file content) =
        Disk.place.settle disk location (.file ⟨content, time⟩) := by
      unfold Disk.place
      cases found : disk.get location with
      | none => exact if_pos (ends (by simp))
      | some there =>
        cases there with
        | directory =>
          rw [FileSystem.isDir_iff.mpr found] at leaf
          contradiction
        | file data => exact if_pos (ends (by simp))
        | special => exact if_pos (ends (by simp))
    rw [placed]
    exact settle_ok inside nonroot (.inr leaf)
  | other => contradiction

/-- The places of a tree, each once and each directory before its contents. -/
structure Enumerates (snapshot : Snapshot) (order : List Location) : Prop where
  nodup : order.Nodup
  parentsFirst : order.Pairwise fun earlier later => ¬later <+: earlier
  mem : ∀ rel, rel ∈ order ↔ (snapshot.node rel).isSome = true

theorem Enumerates.parent_done {snapshot : Snapshot} {done rest : List Location} {front : Location}
    (enumerates : Enumerates snapshot (done ++ (front ++ [name]) :: rest)) :
    front ∈ done ∧ snapshot.node front = some .directory := by
  have own : (snapshot.node (front ++ [name])).isSome = true := (enumerates.mem _).mp (by simp)
  have directory := snapshot.closed front name own
  refine ⟨?_, directory⟩
  have listed : front ∈ done ++ (front ++ [name]) :: rest := (enumerates.mem front).mpr (by rw [directory]; rfl)
  rcases List.mem_append.mp listed with before | after
  · exact before
  · exfalso
    rcases List.mem_cons.mp after with same | later
    · simpa using congrArg List.length same
    · have late := (List.pairwise_append.mp enumerates.parentsFirst).2.1
      exact (List.pairwise_cons.mp late).1 front later (List.prefix_append _ _)

/-- The tree as far as it is unpacked. -/
structure Unpacked (base : Disk) (dest : Location) (snapshot : Snapshot) (done : List Location) (disk : Disk) :
    Prop where
  present : ∀ rel ∈ done, shown disk (dest ++ rel) = snapshot.node rel
  others : ∀ location, (∀ rel ∈ done, location ≠ dest ++ rel) → disk.get location = base.get location

section Unpack
variable {base : Disk} {dest : Location} {snapshot : Snapshot} {done rest : List Location} {rel : Location}
  {disk : Disk}

theorem Unpacked.next {after : Disk} (unpacked : Unpacked base dest snapshot done disk) (fresh : rel ∉ done)
    (only : disk.Only (dest ++ rel) after) (placed : shown after (dest ++ rel) = snapshot.node rel) :
    Unpacked base dest snapshot (done ++ [rel]) after := by
  constructor
  · intro other member
    rcases List.mem_append.mp member with before | own
    · have apart : dest ++ other ≠ dest ++ rel := fun same => fresh (List.append_cancel_left same ▸ before)
      rw [shown, only _ apart]
      exact unpacked.present other before
    · rw [List.mem_singleton.mp own]
      exact placed
  · intro location away
    rw [only location (away rel (by simp))]
    exact unpacked.others location fun other member => away other (by simp [member])

/-- What the next entry finds: its parent, and in its own place what was there at first. -/
theorem Unpacked.ready (unpacked : Unpacked base dest snapshot done disk)
    (enumerates : Enumerates snapshot (done ++ rel :: rest)) (inside : base.isDir dest = true) :
    disk.isDir (dest ++ rel).dropLast = true ∧ disk.get (dest ++ rel) = base.get (dest ++ rel) := by
  have fresh : rel ∉ done := by
    intro member
    exact (List.nodup_append.mp enumerates.nodup).2.2 _ member _ List.mem_cons_self rfl
  have own : disk.get (dest ++ rel) = base.get (dest ++ rel) :=
    unpacked.others _ fun other member same => fresh (List.append_cancel_left same ▸ member)
  refine ⟨?_, own⟩
  rcases List.eq_nil_or_concat rel with rfl | ⟨front, name, rfl⟩
  · apply FileSystem.isDir_dropLast
    rw [List.append_nil] at own ⊢
    rw [FileSystem.isDir_iff] at inside ⊢
    rw [own, inside]
  · rw [List.concat_eq_append] at enumerates ⊢
    obtain ⟨before, directory⟩ := enumerates.parent_done
    rw [← List.append_assoc, List.dropLast_concat]
    exact shown_directory.mp ((unpacked.present front before).trans directory)

theorem Unpacked.overlays {before after : Disk} (unpacked : Unpacked base dest snapshot done after)
    (enumerates : Enumerates snapshot done) (leads : before.Leads dest base) :
    Overlays before dest snapshot after := by
  have present {rel : Location} {node : ArchiveNode} (wanted : snapshot.node rel = some node) :
      shown after (dest ++ rel) = some node := by
    rw [unpacked.present rel ((enumerates.mem rel).mpr (by rw [wanted]; rfl)), wanted]
  refine ⟨fun rel node wanted => present wanted, fun location outside absent => ?_, ?_⟩
  · have untouched : after.get location = base.get location := by
      refine unpacked.others location fun rel member same => ?_
      have listed := (enumerates.mem rel).mp member
      rw [absent rel same] at listed
      contradiction
    rw [untouched]
    exact (leads location).resolve_right fun ⟨_, _, above⟩ => outside above
  · rintro location ⟨rest, rfl⟩
    have inside := shown_directory.mp (present snapshot.root)
    rw [List.append_nil] at inside
    by_cases whole : rest = []
    · rwa [whole, List.append_nil] at inside
    · exact after.isDir_above (by rw [FileSystem.isDir_iff.mp inside]; rfl) whole

end Unpack

section Restore
variable {archiver : Archiver} {cwd : Location} {snapshot : Snapshot} {base : Disk} {done rest : List Location}
  {rel : Location}

/-- The entry stands for that place of the tree. -/
def Stands (snapshot : Snapshot) (rel : Location) (entry : ArchiveEntry) : Prop :=
  ∃ node, snapshot.node rel = some (archived node) ∧ Records rel node entry

/-- One entry: it is not skipped, and it is put in its place. -/
theorem unpack_ok {destDir : OsPath} {course : DiskCourse} {entry : ArchiveEntry} (calm : Calm course)
    (stands : Stands snapshot rel entry) (unpacked : Unpacked base (resolve cwd destDir) snapshot done course.world)
    (enumerates : Enumerates snapshot (done ++ rel :: rest)) (inside : base.isDir (resolve cwd destDir) = true)
    (agrees : NoConflict base (resolve cwd destDir) snapshot) :
    Core.isSafeRelativePath entry.path = true ∧
      ∃ after, Disk.react archiver cwd course.world (course.coming 0)
          (.fs (.unpack entry (join destDir entry.path))) = (.ok (), after) ∧
        Unpacked base (resolve cwd destDir) snapshot (done ++ [rel]) after := by
  obtain ⟨node, wanted, records⟩ := stands
  refine ⟨?_, ?_⟩
  · rw [Core.isSafeRelativePath, records.down, bne_iff_ne.mpr records.nonempty]
    rfl
  · obtain ⟨parent, own⟩ := unpacked.ready enumerates inside
    have stood : resolve cwd (join destDir entry.path) = resolve cwd destDir ++ rel := by
      rw [resolve_join, resolve_descends records.down, records.names]
    have alike : ∀ there, course.world.get (resolve cwd destDir ++ rel) = some there →
        (there.isDirectory = true ↔ entry.node = .directory) := by
      intro there found
      rw [own] at found
      rw [records.same]
      exact agrees rel there _ found wanted
    have plain : entry.node ≠ .other := by
      intro other
      exact snapshot.regular rel (by rw [wanted, ← records.same, other])
    have ends : entry.node ≠ .directory → endsInName (join destDir entry.path) = true := by
      intro leaf
      rw [endsInName_join (descends_relative records.down)]
      apply records.ends
      rw [← Bool.not_eq_true, ← archived_directory, ← records.same]
      exact leaf
    obtain ⟨after, placed, only, present⟩ := place_ok (course.coming 0).time parent alike plain ends
    refine ⟨after, ?_, unpacked.next ?_ only ?_⟩
    · change course.world.unpack _ _ (resolve cwd (join destDir entry.path)) _ = _
      unfold Disk.unpack
      rw [calm 0, stood]
      exact placed
    · intro member
      exact (List.nodup_append.mp enumerates.nodup).2.2 _ member _ List.mem_cons_self rfl
    · rw [present, wanted, records.same]

/-- The loop over the entries, by induction on what is left of the walk. -/
theorem restoreEntries_ok {destDir : OsPath} {course : DiskCourse} {todo : List Location}
    {entries : List ArchiveEntry} (calm : Calm course) (stand : List.Forall₂ (Stands snapshot) todo entries)
    (unpacked : Unpacked base (resolve cwd destDir) snapshot done course.world)
    (enumerates : Enumerates snapshot (done ++ todo)) (inside : base.isDir (resolve cwd destDir) = true)
    (agrees : NoConflict base (resolve cwd destDir) snapshot) :
    ∃ after, (Core.restoreEntries destDir (entries.map .ok)).execute (Disk.react archiver cwd) course =
        (.ok (), after) ∧
      Unpacked base (resolve cwd destDir) snapshot (done ++ todo) after.world := by
  induction stand generalizing course done with
  | nil =>
    refine ⟨course, rfl, ?_⟩
    rw [List.append_nil]
    exact unpacked
  | cons stands _ ih =>
    obtain ⟨safe, after, reacted, unpacked'⟩ := unpack_ok calm stands unpacked enumerates inside agrees
    obtain ⟨ran, world⟩ := execute_reacted (fun answer => (ofIo answer >>= fun _ =>
      Core.restoreEntries destDir _)) reacted
    rw [← world] at unpacked'
    rw [List.append_cons] at enumerates
    obtain ⟨last, finished, whole⟩ := ih (calm.after _ _) unpacked' enumerates
    refine ⟨last, ?_, ?_⟩
    · rw [List.map_cons, Core.restoreEntries, ofIo, done_bind, if_pos safe, fs]
      exact ran.trans finished
    · rw [List.append_cons]
      exact whole

/-- A file with this content stands under the path. -/
def Holds (disk : Disk) (path : OsPath) (location : Location) (content : List UInt8) : Prop :=
  endsInName path = true ∧ ∃ time, disk.get location = some (.file ⟨content, time⟩)

theorem core_restoreBackup_ok {archivePath destDir : OsPath} {course : DiskCourse} {order : List Location}
    {entries : List ArchiveEntry} (faithful : archiver.Faithful) (calm : Calm course)
    (holds : Holds course.world archivePath (resolve cwd archivePath) (archiver.encode entries))
    (reachable : Reachable course.world destDir (resolve cwd destDir))
    (enumerates : Enumerates snapshot order) (stand : List.Forall₂ (Stands snapshot) order entries)
    (agrees : NoConflict course.world (resolve cwd destDir) snapshot) :
    ∃ after, (Core.restoreBackup archivePath destDir).execute (Disk.react archiver cwd) course = (.ok (), after) ∧
      Overlays course.world (resolve cwd destDir) snapshot after.world := by
  let react := Disk.react archiver cwd
  obtain ⟨named, time, present⟩ := holds
  let opened := course.after react (.fs (.openFile archivePath))
  let led := opened.after react (.fs (.createDirAll destDir))
  let read := led.after react (.fs (.entries archivePath))
  have opening : react course.world (course.coming 0) (.fs (.openFile archivePath)) = (.ok (), course.world) :=
    congrArg (·, course.world) (openFile_ok (calm 0) present named)
  obtain ⟨base, leading, leads, inside⟩ := createDirAll_ok (calm 1) reachable
  have world : led.world = base := congrArg Prod.snd leading
  have reading : react led.world (led.coming 0) (.fs (.entries archivePath)) = (.ok (entries.map .ok), led.world) := by
    have present' : led.world.get (resolve cwd archivePath) = some (.file ⟨archiver.encode entries, time⟩) := by
      rw [world]
      exact leads.keeps present
    exact congrArg (·, led.world) ((entries_ok (calm 2) archiver present').trans (faithful.lossless entries))
  have agrees' : NoConflict base (resolve cwd destDir) snapshot := by
    intro rel there node found wanted
    by_cases top : rel = []
    · subst top
      rw [snapshot.root] at wanted
      rw [List.append_nil, FileSystem.isDir_iff.mp inside] at found
      cases wanted
      cases found
      exact ⟨fun _ => rfl, fun _ => rfl⟩
    · rw [leads.below top] at found
      exact agrees rel there node found wanted
  have fresh : Unpacked base (resolve cwd destDir) snapshot [] read.world := by
    constructor
    · intro rel member
      contradiction
    · intro location _
      exact congrArg (·.get location) world
  have calm' : Calm read := fun n => calm (n + 3)
  obtain ⟨after, ran, unpacked⟩ := restoreEntries_ok calm' stand fresh enumerates inside agrees'
  refine ⟨after, ?_, unpacked.overlays enumerates leads⟩
  rw [Core.restoreBackup, fs, (execute_reacted _ opening).1, ofIo, done_bind, fs, (execute_reacted _ leading).1, ofIo,
    done_bind, fs, (execute_reacted _ reading).1, ofIo, done_bind]
  exact ran

/-- A backup of a directory succeeds, and restoring the archive, wherever it is kept, puts
the directory's tree over what the destination holds. Into an absent or empty directory it
reproduces the tree, and a second time it changes nothing. -/
theorem backup_restores {archiver : Archiver} {cwd : Location} {source archive : OsPath} {disk : Disk}
    {choices : Nat → DiskChoice} (faithful : archiver.Faithful) (calm : ∀ n, (choices n).fault = none)
    (named : source ≠ []) (inside : disk.isDir (resolve cwd source) = true)
    (regular : Regular disk (resolve cwd source)) (writable : Writable disk archive (resolve cwd archive)) :
    ∃ content made snapshot,
      (Core.createBackup source archive).execute (Disk.react archiver cwd) (.start disk choices) =
        (.ok content.length, made) ∧
      Holds made.world archive (resolve cwd archive) content ∧ disk.Only (resolve cwd archive) made.world ∧
      (∀ rel, resolve cwd source ++ rel ≠ resolve cwd archive →
        snapshot.node rel = shown disk (resolve cwd source ++ rel)) ∧
      ∀ (target : Disk) (archivePath destDir : OsPath) (choices' : Nat → DiskChoice),
        (∀ n, (choices' n).fault = none) → Holds target archivePath (resolve cwd archivePath) content →
        Reachable target destDir (resolve cwd destDir) → NoConflict target (resolve cwd destDir) snapshot →
        ∃ restored, (Core.restoreBackup archivePath destDir).execute (Disk.react archiver cwd)
            (.start target choices') = (.ok (), restored) ∧
          Overlays target (resolve cwd destDir) snapshot restored.world ∧
          ((∀ rel, rel ≠ [] → target.get (resolve cwd destDir ++ rel) = none) →
            ∀ rel, shown restored.world (resolve cwd destDir ++ rel) = snapshot.node rel) ∧
          ∀ choices'' : Nat → DiskChoice, (∀ n, (choices'' n).fault = none) →
            Holds restored.world archivePath (resolve cwd archivePath) content →
            ∃ again, (Core.restoreBackup archivePath destDir).execute (Disk.react archiver cwd)
                (.start restored.world choices'') = (.ok (), again) ∧
              ∀ location, shown again.world location = shown restored.world location := by
  have calm' : Calm (.start disk choices) := calm
  obtain ⟨content, made, mid, time, time', ran, before, isFile, after, encoded, holds⟩ :=
    core_createBackup_ok archiver cwd calm' named inside writable
  have inside' : mid.isDir (resolve cwd source) = true := by
    have apart := writable.apart inside
    rw [FileSystem.isDir_iff] at inside ⊢
    rw [before _ apart]
    exact inside
  have regular' : Regular mid (resolve cwd source) := by
    intro rel
    by_cases own : resolve cwd source ++ rel = resolve cwd archive
    · rw [own, isFile]
      simp
    · rw [before _ own]
      exact regular rel
  let snapshot := mid.snapshot (resolve cwd source) inside' regular'
  obtain ⟨order, nodup, parentsFirst, mem, walked⟩ := faithful.walks mid (resolve cwd source) inside' regular'
  have enumerates : Enumerates snapshot order := by
    refine ⟨nodup, parentsFirst, fun rel => ?_⟩
    change _ ↔ (shown mid _).isSome = true
    rw [shown, Option.isSome_map]
    exact mem rel
  have stand : List.Forall₂ (Stands snapshot) order (archiver.walk mid (resolve cwd source)) := by
    refine walked.imp ?_
    rintro rel entry ⟨node, found, records⟩
    exact ⟨node, congrArg (Option.map archived) found, records⟩
  have restores {target : Disk} {archivePath destDir : OsPath} {choices' : Nat → DiskChoice}
      (calm : ∀ n, (choices' n).fault = none) (holds : Holds target archivePath (resolve cwd archivePath) content)
      (reachable : Reachable target destDir (resolve cwd destDir))
      (agrees : NoConflict target (resolve cwd destDir) snapshot) :
      ∃ restored, (Core.restoreBackup archivePath destDir).execute (Disk.react archiver cwd)
          (.start target choices') = (.ok (), restored) ∧
        Overlays target (resolve cwd destDir) snapshot restored.world := by
    have calm' : Calm (.start target choices') := calm
    rw [encoded] at holds
    exact core_restoreBackup_ok faithful calm' holds reachable enumerates stand agrees
  refine ⟨content, made, snapshot, ran, ⟨writable.named, time', holds⟩, before.trans after, ?_, ?_⟩
  · intro rel other
    exact congrArg (Option.map archived) (before _ other)
  · intro target archivePath destDir choices' calm holds reachable agrees
    obtain ⟨restored, ran, overlays⟩ := restores calm holds reachable agrees
    refine ⟨restored, ran, overlays, overlays.reproduces, fun choices'' calm'' kept => ?_⟩
    have there := overlays.above _ (List.prefix_refl _)
    obtain ⟨again, ran', twice⟩ := restores calm'' kept (.inl there) overlays.noConflict
    exact ⟨again, ran', overlays.idempotent twice⟩

end Restore

/-- On the sample disk the volume of `s1` is restored to a directory that is not there. -/
theorem sample_volume_restored :
    ∃ size made restored,
      (Core.createBackup (Text.bytes "/srv/sky-panel/volumes/s1") (Text.bytes "/srv/s1.tar.zst")).execute
        (Disk.react plainArchiver []) (.start Disk.sample fun _ => .calm 5) = (.ok size, made) ∧
      (Core.restoreBackup (Text.bytes "/srv/s1.tar.zst") (Text.bytes "/srv/copy/s1")).execute
        (Disk.react plainArchiver []) (.start made.world fun _ => .calm 6) = (.ok (), restored) ∧
      ∀ rel, shown restored.world (resolve [] (Text.bytes "/srv/copy/s1") ++ rel) =
        shown Disk.sample (resolve [] (Text.bytes "/srv/sky-panel/volumes/s1") ++ rel) := by
  have regular : Regular Disk.sample (resolve [] (Text.bytes "/srv/sky-panel/volumes/s1")) := by
    have none : ∀ entry ∈ Disk.sample.nodes.entries, entry.2 ≠ .special := by decide +kernel
    exact fun rel found => none _ (AList.mem_lookup_iff.mp found) rfl
  have writable : Writable Disk.sample (Text.bytes "/srv/s1.tar.zst") (resolve [] (Text.bytes "/srv/s1.tar.zst")) :=
    ⟨by decide +kernel, by decide +kernel, .inl (by decide +kernel)⟩
  obtain ⟨content, made, snapshot, ran, holds, only, taken, restores⟩ := @backup_restores plainArchiver [] _ _ _
    (fun _ => .calm 5) plainArchiver_faithful (fun _ => rfl) (by decide) (by decide +kernel) regular writable
  have clear : ∀ front ∈ (resolve [] (Text.bytes "/srv/copy/s1")).inits,
      front ≠ resolve [] (Text.bytes "/srv/s1.tar.zst") ∧
        (Disk.sample.get front = none ∨ Disk.sample.isDir front = true) := by decide +kernel
  have apart {path : String} (outside : ¬resolve [] (Text.bytes path) <+: resolve [] (Text.bytes "/srv/s1.tar.zst"))
      (rel : Location) : resolve [] (Text.bytes path) ++ rel ≠ resolve [] (Text.bytes "/srv/s1.tar.zst") :=
    fun same => outside ⟨rel, same⟩
  have vacant (rel : Location) : made.world.get (resolve [] (Text.bytes "/srv/copy/s1") ++ rel) = none := by
    rw [only _ (apart (by decide +kernel) rel)]
    exact FileSystem.get_below (by decide +kernel) rel
  have reachable : Reachable made.world (Text.bytes "/srv/copy/s1") (resolve [] (Text.bytes "/srv/copy/s1")) := by
    refine .inr ⟨by decide, fun front above => ?_⟩
    obtain ⟨apart, found⟩ := clear front ((List.mem_inits _ _).mpr above)
    rw [FileSystem.isDir, only front apart]
    exact found
  have agrees : NoConflict made.world (resolve [] (Text.bytes "/srv/copy/s1")) snapshot := by
    intro rel there node found
    rw [vacant rel] at found
    contradiction
  obtain ⟨restored, ran', -, reproduces, -⟩ := restores made.world _ _ (fun _ => .calm 6) (fun _ => rfl) holds
    reachable agrees
  refine ⟨_, made, restored, ran, ran', fun rel => ?_⟩
  rw [reproduces (fun rel _ => vacant rel) rel]
  exact taken rel (apart (by decide +kernel) rel)

end SkyDaemon.Agent
