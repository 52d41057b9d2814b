import SkyDaemon.Foundation.Noninterference
import SkyDaemon.Agent.Backups
import SkyDaemon.Agent.Isolation
import SkyDaemon.Agent.Territory

/-! The commands of different servers side by side on one disk. What a command of a server
reads and writes is in that server's directories, so nothing it is answered and nothing it
leaves behind depends on the commands of others. -/
namespace SkyDaemon.Agent
open Protocol UnixPath Program Transition FileSystem

/-! ## The territory of a group of servers -/

namespace Dispatcher
variable (dispatcher : Dispatcher) (cwd : Location) (serverId : String)

/-- The directories of the server; an id that is no file name has none. -/
def serverDirs : List Location :=
  if plain : Plain (Text.bytes serverId) then
    [resolve cwd dispatcher.volumesRoot ++ [⟨_, plain⟩], resolve cwd dispatcher.backupsRoot ++ [⟨_, plain⟩]]
  else []

def roots : List Location := [resolve cwd dispatcher.volumesRoot, resolve cwd dispatcher.backupsRoot]

variable {dispatcher cwd serverId}

theorem mem_serverDirs : dir ∈ dispatcher.serverDirs cwd serverId ↔
    ∃ name : FileName, name.val = Text.bytes serverId ∧
      (dir = resolve cwd dispatcher.volumesRoot ++ [name] ∨ dir = resolve cwd dispatcher.backupsRoot ++ [name]) := by
  unfold serverDirs
  split
  · rename_i plain
    rw [List.mem_cons, List.mem_singleton]
    constructor
    · intro known
      exact ⟨⟨_, plain⟩, rfl, known⟩
    · rintro ⟨name, named, known⟩
      have same : name = ⟨_, plain⟩ := Subtype.ext named
      rwa [← same]
  · rename_i odd
    constructor
    · intro known
      contradiction
    · rintro ⟨name, named, -⟩
      exact absurd (named ▸ name.property) odd

theorem mem_roots {root : Location} : root ∈ dispatcher.roots cwd ↔
    ∃ path, (path = dispatcher.volumesRoot ∨ path = dispatcher.backupsRoot) ∧ root = resolve cwd path := by
  simp [roots]

/-- The directories of the servers, for roots that are not inside any. -/
def territory (apart : ∀ serverId, dispatcher.RootsApart cwd serverId) (group : List String) : Territory where
  dirs := group.flatMap (dispatcher.serverDirs cwd)
  roots := dispatcher.roots cwd
  grounded dir known := by
    obtain ⟨serverId, -, owned⟩ := List.mem_flatMap.mp known
    obtain ⟨name, -, rfl | rfl⟩ := mem_serverDirs.mp owned
    · exact ⟨_, List.mem_cons_self, name, rfl⟩
    · exact ⟨_, List.mem_cons_of_mem _ List.mem_cons_self, name, rfl⟩
  clear root known := by
    obtain ⟨path, member, rfl⟩ := mem_roots.mp known
    rw [← Bool.not_eq_true, below_iff]
    rintro ⟨dir, owned, inside⟩
    obtain ⟨serverId, -, owned⟩ := List.mem_flatMap.mp owned
    obtain ⟨name, named, rfl | rfl⟩ := mem_serverDirs.mp owned
    · exact (apart serverId).outside named (.inl rfl) member inside
    · exact (apart serverId).outside named (.inr rfl) member inside

section Group
variable {apart : ∀ serverId, dispatcher.RootsApart cwd serverId} {group : List String}

theorem territory_holds_iff : (territory apart group).holds location = true ↔
    ∃ serverId ∈ group, ∃ path, dispatcher.Isolated cwd serverId path ∧ resolve cwd path <+: location := by
  rw [Territory.holds, below_iff]
  constructor
  · rintro ⟨dir, known, front⟩
    obtain ⟨serverId, member, owned⟩ := List.mem_flatMap.mp known
    obtain ⟨name, named, rfl | rfl⟩ := mem_serverDirs.mp owned
    · exact ⟨serverId, member, _, isolated_volume_root name named, resolve_child name named _ ▸ front⟩
    · exact ⟨serverId, member, _, isolated_backups_root name named, resolve_child name named _ ▸ front⟩
  · rintro ⟨serverId, member, path, isolated, front⟩
    obtain ⟨name, root, named, kind, inside⟩ := isolated.directory
    refine ⟨resolve cwd root ++ [name], List.mem_flatMap.mpr ⟨serverId, member, ?_⟩, inside.trans front⟩
    exact mem_serverDirs.mpr ⟨name, named, kind.imp (fun same => by rw [same]) fun same => by rw [same]⟩

theorem territory_holds (member : serverId ∈ group) (isolated : dispatcher.Isolated cwd serverId path) :
    (territory apart group).holds (resolve cwd path) = true :=
  territory_holds_iff.mpr ⟨serverId, member, path, isolated, List.prefix_rfl⟩

/-- The territory of a server that is not in the group has no location in common with it. -/
theorem territories_apart (other : serverId ∉ group) (inside : (territory apart [serverId]).holds location = true) :
    (territory apart group).holds location = false := by
  rw [← Bool.not_eq_true]
  intro inside'
  obtain ⟨_, single, path, isolated, front⟩ := territory_holds_iff.mp inside
  cases List.mem_singleton.mp single
  obtain ⟨second, member, path', isolated', front'⟩ := territory_holds_iff.mp inside'
  have different : serverId ≠ second := fun same => other (same ▸ member)
  exact disjoint_of_apart different (apart serverId) (apart second) isolated isolated' front front'

end Group

/-! ## What a command reaches -/

/-- Every path that the call reaches is one of the server's own. -/
def Confines (dispatcher : Dispatcher) (cwd : Location) (serverId : String) : Call → Prop
  | .fs operation => ∀ path ∈ operation.reached, dispatcher.Isolated cwd serverId path
  | _ => True

/-- The command fails before it reaches the file system, or its server id is a file name and it does
not write to the server's directory itself. -/
def Orderly (codec : Base64) (cmd : CommandPayload) : Prop :=
  touchesFiles codec cmd = true → Plain (Text.bytes cmd.serverId) ∧ ¬ writesAbove cmd

theorem handle_confines {codec : Base64} {cmd : CommandPayload} (orderly : Orderly codec cmd) :
    (dispatcher.handle codec cmd).All (dispatcher.Confines cwd cmd.serverId) := by
  refine (dispatcher.handle_calls codec cmd).mono fun call may => ?_
  cases call with
  | fs operation =>
    obtain ⟨plain, beside⟩ := orderly (FileCall.touches may)
    exact FileCall.isolated may ⟨_, plain⟩ rfl fun above => absurd above beside
  | _ => trivial

end Dispatcher

/-! ## Runs -/

section Runs
variable {dispatcher : Dispatcher} {codec : Base64} {archiver : Archiver} {cwd : Location}

/-- Calls of the group's servers are answered by their own directories; those of others leave them
alone. -/
theorem disk_unwinding (walks : archiver.Local) (apart : ∀ serverId, dispatcher.RootsApart cwd serverId)
    (group : List String) :
    Pool.Unwinding (Disk.react archiver cwd) (fun cmd : CommandPayload => decide (cmd.serverId ∈ group))
      (fun cmd call => dispatcher.Confines cwd cmd.serverId call) (Alike (Dispatcher.territory apart group)) := by
  constructor
  · rintro cmd call disk disk' choice own confines alike
    cases call with
    | fs operation =>
      have inside : ∀ path ∈ operation.reached, (Dispatcher.territory apart group).holds (resolve cwd path) = true :=
        fun path member => Dispatcher.territory_holds (of_decide_eq_true own) (confines path member)
      obtain ⟨same, within⟩ := Disk.perform_same choice inside walks alike
      refine ⟨same, within, fun root known => ?_⟩
      have away := (Dispatcher.territory apart group).clear root known
      constructor
      · exact (Disk.perform_roots choice inside (fun root known => (alike.roots root known).1) away).trans
          (alike.roots root known).1
      · exact (Disk.perform_roots choice inside (fun root known => (alike.roots root known).2) away).trans
          (alike.roots root known).2
    | _ => exact ⟨rfl, alike⟩
  · rintro cmd call disk disk' choice other confines alike
    cases call with
    | fs operation =>
      have inside : ∀ path ∈ operation.reached,
          (Dispatcher.territory apart [cmd.serverId]).holds (resolve cwd path) = true :=
        fun path member => Dispatcher.territory_holds (List.mem_singleton_self _) (confines path member)
      have roots (root : Location) (known : root ∈ (Dispatcher.territory apart group).roots) : disk.isDir root = true :=
        (alike.roots root known).1
      constructor
      · exact (Disk.perform_apart choice inside
          (fun _ => Dispatcher.territories_apart (of_decide_eq_false other)) roots).trans alike.within
      · intro root known
        have away := (Dispatcher.territory apart [cmd.serverId]).clear root known
        exact ⟨(Disk.perform_roots choice inside roots away).trans (alike.roots root known).1,
          (alike.roots root known).2⟩
    | _ => exact alike

/-- Orderly commands of any servers in any interleaving. -/
abbrev SharedRun (dispatcher : Dispatcher) (codec : Base64) (archiver : Archiver) (cwd : Location) :
    BackupPool → List BackupEvent → BackupPool → Prop :=
  Run (Pool.Steps (Disk.react archiver cwd) (dispatcher.handle codec) (Dispatcher.Orderly codec))

end Runs

/-! ## Two servers on a quiet host -/

theorem plainArchiver_local : plainArchiver.Local := by
  intro disk disk' dir same
  have listed : PlainArchive.below disk dir = PlainArchive.below disk' dir := by
    unfold PlainArchive.below
    rw [filterMap_within disk (below [dir]), filterMap_within disk' (below [dir]), same]
    all_goals
      intro entry outside
      apply if_neg
      intro front
      rw [below_iff.mpr ⟨dir, List.mem_singleton_self dir, front⟩] at outside
      contradiction
  change PlainArchive.walk disk dir = PlainArchive.walk disk' dir
  rw [PlainArchive.walk, PlainArchive.walk, listed]

/-- The sample disk with a directory for backups. -/
def Disk.twoRoots : Disk := (Disk.sample.makeDirs [] (Disk.sample.place "/srv/sky-panel/backups") 3).2

/-- A backup of `s1` with a deletion of `s2` in the middle of it. -/
def mixedEvents : List BackupEvent :=
  [.receive (lifecycleCommand .backup "s1" none), .receive (Dispatcher.deleteCommand "s2" "world")] ++
    List.replicate 4 (.advance 0 (.calm 5)) ++ [.advance 1 (.calm 5)] ++ List.replicate 4 (.advance 0 (.calm 6))

theorem mixed_orderly (member : .receive cmd ∈ mixedEvents) : Dispatcher.Orderly Dispatcher.unusedCodec cmd := by
  have known : cmd = lifecycleCommand .backup "s1" none ∨ cmd = Dispatcher.deleteCommand "s2" "world" := by
    simpa [mixedEvents] using member
  rcases known with rfl | rfl
  · exact fun _ => ⟨by decide, fun above => by cases above.1⟩
  · exact fun _ => ⟨by decide, fun above => by cases above.1⟩

end SkyDaemon.Agent
