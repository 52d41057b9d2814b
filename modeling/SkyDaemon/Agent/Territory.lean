import SkyDaemon.Foundation.Region
import SkyDaemon.Agent.Disk

/-! Parts of the disk that belong together. An operation on paths of a territory is answered by
what stands there alone, and leaves everything else as it is. -/
namespace SkyDaemon.Agent
open UnixPath FileSystem

/-! ## Territories -/

/-- Directories that stand right under roots of which none is inside one of them. -/
structure Territory where
  dirs : List Location
  roots : List Location
  grounded : ∀ dir ∈ dirs, ∃ root ∈ roots, ∃ name, dir = root ++ [name]
  clear : ∀ root ∈ roots, below dirs root = false

namespace Territory

def holds (territory : Territory) (location : Location) : Bool := below territory.dirs location

variable {territory : Territory} {location : Location}

theorem holds_append (inside : territory.holds location = true) (rest : Location) :
    territory.holds (location ++ rest) = true :=
  below_append inside rest

/-- A location is one of the directories or has its parent in the territory. -/
theorem holds_cases (inside : territory.holds location = true) :
    ∃ root ∈ territory.roots, ∃ name rest, location = root ++ name :: rest ∧
      territory.holds (root ++ [name]) = true := by
  obtain ⟨dir, member, rest, here⟩ := below_iff.mp inside
  obtain ⟨root, known, name, rfl⟩ := territory.grounded dir member
  refine ⟨root, known, name, rest, by rw [← here]; simp, ?_⟩
  exact below_iff.mpr ⟨_, member, List.prefix_rfl⟩

end Territory

/-- The disks agree on the territory, and its roots are directories on both. -/
structure Alike (territory : Territory) (disk disk' : Disk) : Prop where
  within : disk.within territory.holds = disk'.within territory.holds
  roots : ∀ root ∈ territory.roots, disk.isDir root = true ∧ disk'.isDir root = true

namespace Alike
variable {territory : Territory} {disk disk' : Disk} {location : Location}

theorem get_eq (alike : Alike territory disk disk') (inside : territory.holds location = true) :
    disk.get location = disk'.get location :=
  get_congr alike.within inside

theorem isDir_eq (alike : Alike territory disk disk') (inside : territory.holds location = true) :
    disk.isDir location = disk'.isDir location :=
  isDir_congr alike.within inside

theorem above_eq (alike : Alike territory disk disk') (inside : territory.holds location = true) :
    disk.isDir location.dropLast = disk'.isDir location.dropLast := by
  obtain ⟨root, known, name, rest, rfl, directory⟩ := Territory.holds_cases inside
  rcases List.eq_nil_or_concat rest with rfl | ⟨front, last, rfl⟩
  · rw [List.dropLast_concat, (alike.roots root known).1, (alike.roots root known).2]
  · have above : (root ++ name :: front.concat last).dropLast = root ++ [name] ++ front := by
      rw [List.concat_eq_append, ← List.cons_append, ← List.append_assoc, List.dropLast_concat]
      simp
    rw [above]
    exact alike.isDir_eq (Territory.holds_append directory front)

theorem children_eq (alike : Alike territory disk disk') (inside : territory.holds location = true) :
    disk.children location = disk'.children location :=
  children_congr alike.within fun name => Territory.holds_append inside [name]

/-- What is above the territory is a directory on both disks. -/
theorem absence_eq (alike : Alike territory disk disk') (inside : territory.holds location = true) :
    disk.absence location = disk'.absence location := by
  obtain ⟨root, known, name, rest, rfl, directory⟩ := Territory.holds_cases inside
  have front {disk disk' : Disk} (alike : Alike territory disk disk') {front : Location}
      (on : front <+: root ++ name :: rest) :
      ((disk.get front).any fun node => !node.isDirectory) = (disk'.get front).any fun node => !node.isDirectory := by
    by_cases below : root ++ [name] <+: front
    · obtain ⟨more, rfl⟩ := below
      rw [alike.get_eq (Territory.holds_append directory more)]
    · have above : front <+: root := by
        have other : root ++ [name] <+: root ++ name :: rest := ⟨rest, by simp⟩
        rcases List.prefix_or_prefix_of_prefix on other with short | long
        · rcases List.prefix_concat_iff.mp short with same | shorter
          · exact absurd (same ▸ List.prefix_rfl) below
          · exact shorter
        · exact absurd long below
      have isDirectory {disk : Disk} (there : disk.isDir root = true) : disk.isDir front = true := by
        obtain ⟨more, rfl⟩ := above
        by_cases whole : more = []
        · rwa [whole, List.append_nil] at there
        · exact disk.isDir_above (by rw [isDir_iff.mp there]; rfl) whole
      obtain ⟨here, there⟩ := alike.roots root known
      rw [isDir_iff.mp (isDirectory here), isDir_iff.mp (isDirectory there)]
  have same : ((root ++ name :: rest).inits.any fun front => (disk.get front).any fun node => !node.isDirectory) =
      (root ++ name :: rest).inits.any fun front => (disk'.get front).any fun node => !node.isDirectory := by
    rw [Bool.eq_iff_iff, List.any_eq_true, List.any_eq_true]
    refine exists_congr fun other => and_congr_right fun member => ?_
    rw [front alike ((List.mem_inits _ _).mp member)]
  rw [Disk.absence, Disk.absence, same]

end Alike

/-- Operations with the same answer that leave the same in the territory. -/
def Same (territory : Territory) (first second : α × Disk) : Prop :=
  first.1 = second.1 ∧ first.2.within territory.holds = second.2.within territory.holds

theorem Same.ite {territory : Territory} {c c' : Prop} [Decidable c] [Decidable c'] {a b a' b' : α × Disk}
    (same : c ↔ c') (yes : Same territory a b) (no : Same territory a' b') :
    Same territory (if c then a else a') (if c' then b else b') := by
  by_cases holds : c
  · rw [if_pos holds, if_pos (same.mp holds)]
    exact yes
  · rw [if_neg holds, if_neg (holds ∘ same.mpr)]
    exact no

/-! ## Operations inside a territory -/

namespace Disk
variable {territory : Territory} {disk disk' : Disk} {location : Location} (choice : DiskChoice) (path : OsPath)

section Inside
variable (alike : Alike territory disk disk') (inside : territory.holds location = true)
include alike inside

theorem put_same (result : α) (node : Node FileData) :
    Same territory (result, disk.put location node) (result, disk'.put location node) :=
  ⟨rfl, within_put_congr alike.within inside (alike.above_eq inside)⟩

theorem metadata_same : disk.metadata choice path location = disk'.metadata choice path location := by
  rw [metadata, metadata, alike.get_eq inside, alike.absence_eq inside]

theorem readDir_same : disk.readDir choice path location = disk'.readDir choice path location := by
  rw [readDir, readDir, alike.get_eq inside, alike.absence_eq inside, alike.children_eq inside]

theorem openFile_same : disk.openFile choice path location = disk'.openFile choice path location := by
  rw [openFile, openFile, alike.get_eq inside, alike.absence_eq inside]

theorem read_same : disk.read choice path location = disk'.read choice path location := by
  rw [read, read, alike.get_eq inside, alike.absence_eq inside]

theorem entries_same (archiver : Archiver) :
    disk.entries archiver choice path location = disk'.entries archiver choice path location := by
  rw [entries, entries, alike.get_eq inside]

theorem store_same (data : FileData) :
    Same territory (disk.store path location data) (disk'.store path location data) := by
  have unchanged {result : Except IoError Unit} : Same territory (result, disk) (result, disk') := ⟨rfl, alike.within⟩
  have stored := put_same alike inside (.ok () : Except IoError Unit) (.file data)
  rw [store, store, alike.get_eq inside, alike.above_eq inside, alike.absence_eq inside]
  refine .ite .rfl unchanged ?_
  cases disk'.get location with
  | none => exact .ite .rfl stored unchanged
  | some node =>
    cases node with
    | file old => exact .ite .rfl stored unchanged
    | directory => exact unchanged
    | special => exact unchanged

theorem createFile_same :
    Same territory (disk.createFile choice path location) (disk'.createFile choice path location) := by
  rw [createFile, createFile]
  cases choice.fault with
  | some error => exact ⟨rfl, alike.within⟩
  | none => exact store_same path alike inside _

theorem write_same (content : List UInt8) :
    Same territory (disk.write choice path location content) (disk'.write choice path location content) := by
  unfold write
  cases choice.fault with
  | none => exact store_same path alike inside _
  | some error =>
    cases choice.left with
    | none => exact ⟨rfl, alike.within⟩
    | some left => exact ⟨rfl, (store_same path alike inside _).2⟩

theorem place_same (time : Option Nat) (node : ArchiveNode) :
    Same territory (disk.place path location time node) (disk'.place path location time node) := by
  have unchanged {result : Except IoError Unit} : Same territory (result, disk) (result, disk') := ⟨rfl, alike.within⟩
  have settle (node : Node FileData) :
      Same territory (place.settle disk location node) (place.settle disk' location node) := by
    rw [place.settle, place.settle, alike.above_eq inside, alike.absence_eq inside]
    exact .ite .rfl (put_same alike inside _ node) unchanged
  unfold place
  rw [alike.get_eq inside]
  cases disk'.get location with
  | none =>
    cases node with
    | directory => exact settle _
    | file content => exact .ite .rfl (settle _) unchanged
    | other => exact settle _
  | some found =>
    cases node with
    | directory => cases found <;> exact unchanged
    | file content =>
      cases found with
      | directory => exact unchanged
      | file old => exact .ite .rfl (settle _) unchanged
      | special => exact .ite .rfl (settle _) unchanged
    | other =>
      cases found with
      | directory => exact unchanged
      | file old => exact settle _
      | special => exact settle _

theorem unpack_same (node : ArchiveNode) :
    Same territory (disk.unpack choice path location node) (disk'.unpack choice path location node) := by
  unfold unpack
  cases choice.fault with
  | none => exact place_same path alike inside _ node
  | some error =>
    cases node with
    | file content =>
      cases choice.left with
      | none => exact ⟨rfl, alike.within⟩
      | some left => exact ⟨rfl, (place_same path alike inside _ _).2⟩
    | directory => exact ⟨rfl, alike.within⟩
    | other => exact ⟨rfl, alike.within⟩

theorem removeFile_same :
    Same territory (disk.removeFile choice path location) (disk'.removeFile choice path location) := by
  have removed :
      Same territory (.ok (), disk.remove location) ((.ok () : Except IoError Unit), disk'.remove location) :=
    ⟨rfl, within_remove_congr alike.within⟩
  rw [removeFile, removeFile, alike.get_eq inside, alike.absence_eq inside]
  cases choice.fault with
  | some error => exact ⟨rfl, alike.within⟩
  | none =>
    cases disk'.get location with
    | none => exact ⟨rfl, alike.within⟩
    | some node =>
      cases node with
      | directory => exact ⟨rfl, alike.within⟩
      | file data => exact .ite .rfl removed ⟨rfl, alike.within⟩
      | special => exact .ite .rfl removed ⟨rfl, alike.within⟩

theorem removeDirAll_same :
    Same territory (disk.removeDirAll choice path location) (disk'.removeDirAll choice path location) := by
  have swept (gone : List Location) {disk disk' : Disk}
      (same : disk.within territory.holds = disk'.within territory.holds) :
      (gone.foldl (fun disk part => if location <+: part then disk.remove part else disk) disk).within territory.holds =
        (gone.foldl (fun disk part => if location <+: part then disk.remove part else disk) disk').within
          territory.holds := by
    induction gone generalizing disk disk' with
    | nil => exact same
    | cons part rest ih =>
      apply ih
      dsimp only
      by_cases inside : location <+: part
      · rw [if_pos inside, if_pos inside]
        exact within_remove_congr same
      · rw [if_neg inside, if_neg inside]
        exact same
  rw [removeDirAll, removeDirAll, alike.get_eq inside, alike.absence_eq inside]
  cases choice.fault with
  | some error => exact ⟨rfl, swept choice.gone alike.within⟩
  | none =>
    cases disk'.get location with
    | none => exact ⟨rfl, alike.within⟩
    | some node =>
      cases node with
      | directory => exact .ite .rfl ⟨rfl, alike.within⟩ ⟨rfl, within_remove_congr alike.within⟩
      | file data => exact ⟨rfl, alike.within⟩
      | special => exact ⟨rfl, alike.within⟩

/-- The way to a location of the territory is made from its root. -/
theorem makeDirs_same (limit : Nat) :
    Same territory (disk.makeDirs [] location limit) (disk'.makeDirs [] location limit) := by
  obtain ⟨root, known, name, rest, rfl, directory⟩ := Territory.holds_cases inside
  obtain ⟨here, there⟩ := alike.roots root known
  rw [makeDirs_append [] here, makeDirs_append [] there, List.nil_append]
  refine within_makeDirs_congr alike.within here there _ limit fun front nonempty on => ?_
  cases front with
  | nil => contradiction
  | cons first more =>
    obtain ⟨rfl, -⟩ := List.cons_prefix_cons.mp on
    have joined : root ++ first :: more = root ++ [first] ++ more := by simp
    rw [joined]
    exact Territory.holds_append directory more

theorem createDirAll_same :
    Same territory (disk.createDirAll choice path location) (disk'.createDirAll choice path location) := by
  have made := makeDirs_same alike inside
  rw [createDirAll, createDirAll, alike.get_eq inside]
  refine .ite .rfl ⟨rfl, alike.within⟩ ?_
  cases choice.fault with
  | some error => exact ⟨rfl, (made choice.made).2⟩
  | none =>
    obtain ⟨same, alike'⟩ := made location.length
    dsimp only
    rcases first : disk.makeDirs [] location location.length with ⟨reached, after⟩
    rcases second : disk'.makeDirs [] location location.length with ⟨reached', after'⟩
    rw [first, second] at same alike'
    cases same
    cases reached with
    | true => exact ⟨rfl, alike'⟩
    | false => exact ⟨rfl, alike'⟩

/-- What tar lists below a directory is a matter of that directory. -/
theorem appendDirAll_same {archiver : Archiver} {volume : Location} (source archive : OsPath)
    (walks : archiver.walk disk volume = archiver.walk disk' volume) (own : territory.holds volume = true) :
    Same territory (disk.appendDirAll archiver choice source archive volume location)
      (disk'.appendDirAll archiver choice source archive volume location) := by
  rw [appendDirAll, appendDirAll, alike.get_eq inside, alike.isDir_eq own, alike.absence_eq own, walks]
  cases disk'.get location with
  | none => exact ⟨rfl, alike.within⟩
  | some node =>
    cases node with
    | file data =>
      refine .ite .rfl (put_same alike inside _ _) ?_
      cases choice.left with
      | none => exact ⟨rfl, alike.within⟩
      | some left => exact put_same alike inside _ _
    | directory => exact ⟨rfl, alike.within⟩
    | special => exact ⟨rfl, alike.within⟩

theorem rename_same {target : Location} (source destination : OsPath) (inside' : territory.holds target = true) :
    Same territory (disk.rename choice source destination location target)
      (disk'.rename choice source destination location target) := by
  have unchanged {result : Except IoError Unit} : Same territory (result, disk) (result, disk') := ⟨rfl, alike.within⟩
  have above := alike.above_eq inside'
  have movable : disk.Movable location target ↔ disk'.Movable location target :=
    movable_congr alike.within (fun rest => Territory.holds_append inside' rest) above
  have moved :=
    within_move_congr alike.within (fun _ rest here => Territory.holds_append here rest) inside inside' above
  rw [rename, rename, alike.get_eq inside, alike.get_eq inside', alike.absence_eq inside, alike.absence_eq inside',
    alike.children_eq inside', above]
  cases choice.fault with
  | some error => exact unchanged
  | none =>
    cases disk'.get location with
    | none => exact unchanged
    | some node =>
      refine .ite .rfl unchanged (.ite .rfl unchanged (.ite .rfl unchanged (.ite .rfl unchanged ?_)))
      refine .ite .rfl unchanged (.ite .rfl unchanged (.ite .rfl unchanged ?_))
      exact .ite movable ⟨rfl, moved⟩ unchanged

end Inside

/-! ## Operations and other regions -/

section Outside
variable {region : Location → Bool} (disk : Disk) (apart : ∀ other, territory.holds other = true → region other = false)
  (inside : territory.holds location = true)
include apart inside

theorem put_apart (node : Node FileData) : (disk.put location node).within region = disk.within region :=
  within_put_outside disk node (apart _ inside)

theorem remove_apart : (disk.remove location).within region = disk.within region :=
  within_remove_outside disk fun rest => apart _ (Territory.holds_append inside rest)

theorem store_apart (data : FileData) : (disk.store path location data).2.within region = disk.within region := by
  rcases disk.store_cases path location data with ⟨error, refused⟩ | ⟨-, -, stored⟩
  · rw [refused]
  · rw [stored]
    exact put_apart disk apart inside _

theorem createFile_apart : (disk.createFile choice path location).2.within region = disk.within region := by
  unfold createFile
  split
  · rfl
  · exact store_apart path disk apart inside _

theorem write_apart (content : List UInt8) :
    (disk.write choice path location content).2.within region = disk.within region := by
  unfold write
  split
  · exact store_apart path disk apart inside _
  · rfl
  · exact store_apart path disk apart inside _

theorem place_apart (time : Option Nat) (node : ArchiveNode) :
    (disk.place path location time node).2.within region = disk.within region := by
  have settle (node : Node FileData) : (place.settle disk location node).2.within region = disk.within region := by
    unfold place.settle
    split
    · exact put_apart disk apart inside _
    · rfl
  unfold place
  split
  · rfl
  · rfl
  · exact settle _
  · rfl
  · rfl
  · split
    · exact settle _
    · rfl
  · exact settle _

theorem unpack_apart (node : ArchiveNode) :
    (disk.unpack choice path location node).2.within region = disk.within region := by
  unfold unpack
  split
  · exact place_apart path disk apart inside _ _
  · exact place_apart path disk apart inside _ _
  · rfl

theorem removeFile_apart : (disk.removeFile choice path location).2.within region = disk.within region := by
  unfold removeFile
  split
  · rfl
  · rfl
  · rfl
  · split
    · exact remove_apart disk apart inside
    · rfl

theorem removeDirAll_apart : (disk.removeDirAll choice path location).2.within region = disk.within region := by
  have swept (gone : List Location) (disk : Disk) :
      (gone.foldl (fun disk part => if location <+: part then disk.remove part else disk) disk).within region =
        disk.within region := by
    induction gone generalizing disk with
    | nil => rfl
    | cons part rest ih =>
      rw [List.foldl_cons, ih]
      split
      · rename_i deeper
        obtain ⟨more, rfl⟩ := deeper
        exact remove_apart disk apart (Territory.holds_append inside more)
      · rfl
  unfold removeDirAll
  split
  · exact swept choice.gone disk
  · rfl
  · split
    · rfl
    · exact remove_apart disk apart inside
  · rfl

theorem appendDirAll_apart (archiver : Archiver) (source archive : OsPath) (volume : Location) :
    (disk.appendDirAll archiver choice source archive volume location).2.within region = disk.within region := by
  unfold appendDirAll
  split
  · split
    · exact put_apart disk apart inside _
    · split
      · exact put_apart disk apart inside _
      · rfl
  · rfl

theorem rename_apart {target : Location} (source destination : OsPath) (inside' : territory.holds target = true) :
    (disk.rename choice source destination location target).2.within region = disk.within region := by
  have moved := within_move_outside disk (fun rest => apart _ (Territory.holds_append inside rest))
    fun rest => apart _ (Territory.holds_append inside' rest)
  unfold rename
  split
  · rfl
  · rfl
  · repeat' split
    all_goals first | rfl | exact moved

/-- Directories appear inside the territory only, since its roots are there. -/
theorem createDirAll_apart (roots : ∀ root ∈ territory.roots, disk.isDir root = true) :
    (disk.createDirAll choice path location).2.within region = disk.within region := by
  have made (limit : Nat) : (disk.makeDirs [] location limit).2.within region = disk.within region := by
    obtain ⟨root, known, name, rest, rfl, directory⟩ := Territory.holds_cases inside
    rw [makeDirs_append [] (roots root known), List.nil_append]
    refine within_makeDirs_outside _ limit fun front nonempty on => apart _ ?_
    cases front with
    | nil => contradiction
    | cons first more =>
      obtain ⟨rfl, -⟩ := List.cons_prefix_cons.mp on
      have joined : root ++ first :: more = root ++ [first] ++ more := by simp
      rw [joined]
      exact Territory.holds_append directory more
  unfold createDirAll
  split
  · rfl
  · split
    · exact made choice.made
    · have kept := made location.length
      split <;> (rename_i ended; rw [ended] at kept; exact kept)

end Outside

end Disk

/-! ## Any operation -/

/-- What a walk lists depends on the walked directory alone. -/
def Archiver.Local (archiver : Archiver) : Prop := ∀ (disk disk' : Disk) (dir : Location),
  disk.within (below [dir]) = disk'.within (below [dir]) → archiver.walk disk dir = archiver.walk disk' dir

section Perform
variable {territory : Territory} {archiver : Archiver} {cwd : Location} {disk disk' : Disk} (choice : DiskChoice)
  {operation : FsCall} (inside : ∀ path ∈ operation.reached, territory.holds (resolve cwd path) = true)
include inside

theorem Disk.perform_same (walks : archiver.Local) (alike : Alike territory disk disk') :
    Same territory (disk.perform archiver cwd choice operation) (disk'.perform archiver cwd choice operation) := by
  cases operation with
  | createDirAll path => exact createDirAll_same choice path alike (inside path List.mem_cons_self)
  | readDir path => exact ⟨readDir_same choice path alike (inside path List.mem_cons_self), alike.within⟩
  | metadata path => exact ⟨metadata_same choice path alike (inside path List.mem_cons_self), alike.within⟩
  | read path => exact ⟨read_same choice path alike (inside path List.mem_cons_self), alike.within⟩
  | write path content => exact write_same choice path alike (inside path List.mem_cons_self) content
  | rename source target =>
    have own' := inside target (by simp [FsCall.reached, FsCall.paths])
    exact rename_same choice alike (inside source List.mem_cons_self) source target own'
  | removeDirAll path => exact removeDirAll_same choice path alike (inside path List.mem_cons_self)
  | removeFile path => exact removeFile_same choice path alike (inside path List.mem_cons_self)
  | isDir path =>
    refine ⟨?_, alike.within⟩
    change isDirAt disk choice path _ = isDirAt disk' choice path _
    rw [isDirAt, isDirAt, alike.isDir_eq (inside path List.mem_cons_self)]
  | createFile path => exact createFile_same choice path alike (inside path List.mem_cons_self)
  | appendDirAll source archive =>
    have own := inside source List.mem_cons_self
    refine appendDirAll_same choice alike (inside archive (by simp [FsCall.reached])) source archive ?_ own
    apply walks
    refine within_part alike.within fun other deeper => ?_
    obtain ⟨dir, single, rest, rfl⟩ := below_iff.mp deeper
    rw [List.mem_singleton.mp single]
    exact Territory.holds_append own rest
  | syncAll archive => exact ⟨rfl, alike.within⟩
  | openFile path => exact ⟨openFile_same choice path alike (inside path List.mem_cons_self), alike.within⟩
  | entries archive =>
    exact ⟨entries_same choice archive alike (inside archive List.mem_cons_self) archiver, alike.within⟩
  | unpack entry path => exact unpack_same choice path alike (inside path List.mem_cons_self) entry.node

theorem Disk.perform_apart {region : Location → Bool}
    (apart : ∀ other, territory.holds other = true → region other = false)
    (roots : ∀ root ∈ territory.roots, disk.isDir root = true) :
    (disk.perform archiver cwd choice operation).2.within region = disk.within region := by
  cases operation with
  | createDirAll path => exact createDirAll_apart choice path disk apart (inside path List.mem_cons_self) roots
  | write path content => exact write_apart choice path disk apart (inside path List.mem_cons_self) content
  | rename source target =>
    have own' := inside target (by simp [FsCall.reached, FsCall.paths])
    exact rename_apart choice disk apart (inside source List.mem_cons_self) source target own'
  | removeDirAll path => exact removeDirAll_apart choice path disk apart (inside path List.mem_cons_self)
  | removeFile path => exact removeFile_apart choice path disk apart (inside path List.mem_cons_self)
  | createFile path => exact createFile_apart choice path disk apart (inside path List.mem_cons_self)
  | appendDirAll source archive =>
    exact appendDirAll_apart choice disk apart (inside archive (by simp [FsCall.reached])) archiver source archive _
  | unpack entry path => exact unpack_apart choice path disk apart (inside path List.mem_cons_self) entry.node
  | _ => rfl

/-- The roots are outside of the territory and stay directories. -/
theorem Disk.perform_roots (roots : ∀ root ∈ territory.roots, disk.isDir root = true) {root : Location}
    (away : territory.holds root = false) :
    (disk.perform archiver cwd choice operation).2.isDir root = disk.isDir root := by
  have kept : (disk.perform archiver cwd choice operation).2.within (fun other => decide (other = root)) =
      disk.within fun other => decide (other = root) := by
    refine perform_apart choice inside (fun other holds => decide_eq_false ?_) roots
    rintro rfl
    rw [away] at holds
    contradiction
  exact isDir_congr kept (decide_eq_true rfl)

end Perform
end SkyDaemon.Agent
