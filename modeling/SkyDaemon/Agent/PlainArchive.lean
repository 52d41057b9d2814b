import SkyDaemon.Foundation.Framing
import SkyDaemon.Agent.Concurrent
import SkyDaemon.Agent.Disk
import Mathlib.Data.List.Sort

/-! An archive format of the simplest kind, which does what is assumed of tar and zstd: the
entries one after another, each text as marked bytes up to an end mark. A walk lists what
is below a directory by depth. -/
namespace SkyDaemon.Agent
open UnixPath

namespace PlainArchive

/-! ## Texts -/

def putBytes (bytes : List UInt8) : List UInt8 := bytes.flatMap (fun byte => [1, byte]) ++ [0]

def takeBytes : List UInt8 → Option (List UInt8 × List UInt8)
  | 1 :: byte :: rest => (takeBytes rest).map fun taken => (byte :: taken.1, taken.2)
  | 0 :: rest => some ([], rest)
  | _ => none

theorem takeBytes_putBytes (bytes rest : List UInt8) : takeBytes (putBytes bytes ++ rest) = some (bytes, rest) := by
  induction bytes with
  | nil => rfl
  | cons byte bytes ih =>
    change takeBytes (1 :: byte :: (putBytes bytes ++ rest)) = _
    rw [takeBytes, ih]
    rfl

theorem takeBytes_cases (found : takeBytes buf = some (bytes, rest)) :
    rest.length < buf.length ∧ ∀ more, takeBytes (buf ++ more) = some (bytes, rest ++ more) := by
  induction buf using takeBytes.induct generalizing bytes with
  | case1 byte tail ih =>
    rw [takeBytes] at found
    obtain ⟨⟨inner, left⟩, taken, same⟩ := Option.map_eq_some_iff.mp found
    cases same
    obtain ⟨shrinks, stable⟩ := ih taken
    dsimp only at shrinks
    refine ⟨by simp only [List.length_cons]; omega, fun more => ?_⟩
    change takeBytes (1 :: byte :: (tail ++ more)) = _
    rw [takeBytes, stable more]
    rfl
  | case2 tail =>
    rw [takeBytes] at found
    cases found
    exact ⟨by simp, fun more => rfl⟩
  | case3 buf notMarked notEnded =>
    rw [takeBytes] at found
    · contradiction
    · exact notMarked
    · exact notEnded

/-! ## Entries -/

def putEntry : ArchiveEntry → List UInt8
  | ⟨path, .directory⟩ => 0 :: putBytes path
  | ⟨path, .other⟩ => 1 :: putBytes path
  | ⟨path, .file content⟩ => 2 :: (putBytes path ++ putBytes content)

def takeEntry : List UInt8 → Option (ArchiveEntry × List UInt8)
  | 0 :: rest => (takeBytes rest).map fun path => (⟨path.1, .directory⟩, path.2)
  | 1 :: rest => (takeBytes rest).map fun path => (⟨path.1, .other⟩, path.2)
  | 2 :: rest => (takeBytes rest).bind fun path =>
      (takeBytes path.2).map fun content => (⟨path.1, .file content.1⟩, content.2)
  | _ => none

/-- An entry that is nothing but its path. -/
theorem takePath_cases {node : ArchiveNode}
    (found : ((takeBytes tail).map fun path => ((⟨path.1, node⟩ : ArchiveEntry), path.2)) = some (entry, rest)) :
    rest.length < tail.length ∧ ∀ more,
      ((takeBytes (tail ++ more)).map fun path => ((⟨path.1, node⟩ : ArchiveEntry), path.2)) =
        some (entry, rest ++ more) := by
  obtain ⟨⟨path, left⟩, taken, same⟩ := Option.map_eq_some_iff.mp found
  cases same
  obtain ⟨shrinks, stable⟩ := takeBytes_cases taken
  refine ⟨shrinks, fun more => ?_⟩
  rw [stable more]
  rfl

theorem takeEntry_cases (found : takeEntry buf = some (entry, rest)) :
    rest.length < buf.length ∧ ∀ more, takeEntry (buf ++ more) = some (entry, rest ++ more) := by
  unfold takeEntry at found
  split at found
  · obtain ⟨shrinks, stable⟩ := takePath_cases found
    exact ⟨Nat.lt_succ_of_lt shrinks, stable⟩
  · obtain ⟨shrinks, stable⟩ := takePath_cases found
    exact ⟨Nat.lt_succ_of_lt shrinks, stable⟩
  · obtain ⟨⟨path, left⟩, taken, found⟩ := Option.bind_eq_some_iff.mp found
    obtain ⟨⟨content, last⟩, taken', same⟩ := Option.map_eq_some_iff.mp found
    cases same
    obtain ⟨shrinks, stable⟩ := takeBytes_cases taken
    obtain ⟨shrinks', stable'⟩ := takeBytes_cases taken'
    refine ⟨Nat.lt_succ_of_lt (shrinks'.trans shrinks), fun more => ?_⟩
    rw [List.cons_append, takeEntry, stable more, Option.bind_some]
    dsimp only
    rw [stable' more]
    rfl
  · contradiction

def framing : Framing UInt8 ArchiveEntry where
  next := takeEntry
  shrinks found := (takeEntry_cases found).1
  stable found := (takeEntry_cases found).2 _

theorem takeEntry_putEntry (entry : ArchiveEntry) (more : List UInt8) :
    takeEntry (putEntry entry ++ more) = some (entry, more) := by
  obtain ⟨path, node⟩ := entry
  cases node with
  | directory => rw [putEntry, List.cons_append, takeEntry, takeBytes_putBytes]; rfl
  | other => rw [putEntry, List.cons_append, takeEntry, takeBytes_putBytes]; rfl
  | file content =>
    rw [putEntry, List.cons_append, List.append_assoc, takeEntry, takeBytes_putBytes, Option.bind_some]
    dsimp only
    rw [takeBytes_putBytes]
    rfl

/-! ## Walks -/

/-- `.` followed by the names. -/
def dotted (rel : Location) : OsPath := dot :: rel.flatMap fun name => slash :: name.val

/-- Everything at or below the root, by its place below it. -/
def below (disk : Disk) (root : Location) : List (Location × Node FileData) :=
  disk.nodes.entries.filterMap fun entry =>
    if root <+: entry.1 then some (entry.1.drop root.length, entry.2) else none

def shallower (a b : Location × Node FileData) : Prop := a.1.length ≤ b.1.length

instance : DecidableRel shallower := fun _ _ => inferInstanceAs (Decidable (_ ≤ _))

def walk (disk : Disk) (root : Location) : List ArchiveEntry :=
  ((below disk root).insertionSort shallower).map fun entry => ⟨dotted entry.1, archived entry.2⟩

theorem mem_below : (rel, node) ∈ below disk root ↔ disk.get (root ++ rel) = some node := by
  unfold below
  rw [List.mem_filterMap]
  constructor
  · rintro ⟨⟨location, value⟩, member, kept⟩
    dsimp only at kept
    split at kept
    · rename_i inside
      obtain ⟨rest, rfl⟩ := inside
      rw [List.drop_left] at kept
      cases kept
      exact AList.mem_lookup_iff.mpr member
    · contradiction
  · intro found
    refine ⟨⟨root ++ rel, node⟩, AList.mem_lookup_iff.mp found, ?_⟩
    simp

theorem nodup_below (disk : Disk) (root : Location) : ((below disk root).map Prod.fst).Nodup := by
  have keys : (below disk root).map Prod.fst = disk.nodes.keys.filterMap fun location =>
      if root <+: location then some (location.drop root.length) else none := by
    rw [below, List.map_filterMap, AList.keys, List.keys, List.filterMap_map]
    congr 1
    funext entry
    by_cases inside : root <+: entry.1 <;> simp [inside]
  rw [keys]
  refine List.Nodup.filterMap ?_ (AList.keys_nodup _)
  intro first second rel inFirst inSecond
  have place {location : Location} (kept : rel ∈ if root <+: location then
      some (location.drop root.length) else none) : location = root ++ rel := by
    split at kept
    · rename_i inside
      obtain ⟨rest, rfl⟩ := inside
      rw [List.drop_left] at kept
      cases kept
      rfl
    · contradiction
  rw [place inFirst, place inSecond]

theorem pieces_dotted (rel : Location) : pieces (dotted rel) = [dot] :: rel.map Subtype.val := by
  induction rel using List.reverseRecOn with
  | nil => rfl
  | append_singleton front name ih =>
    have split : dotted (front ++ [name]) = dotted front ++ slash :: name.val := by
      simp [dotted]
    rw [split, pieces_append, ih, pieces_plain name.property.2.2.2]
    simp

theorem components_dotted (rel : Location) : components (dotted rel) = .curDir :: rel.map .normal := by
  have inners : (rel.map Subtype.val).filterMap inner = rel.map Component.normal := by
    have each : inner ∘ Subtype.val = some ∘ Component.normal := funext inner_normal
    rw [List.filterMap_map, each, List.filterMap_eq_map]
  have here : inner [dot] = none := by decide
  rw [components_relative rfl (pieces_dotted rel), inners, here]
  rfl

theorem records_dotted {rel : Location} {node : Node FileData} (top : rel = [] → node.isDirectory = true) :
    Records rel node ⟨dotted rel, archived node⟩ where
  nonempty := List.cons_ne_nil _ _
  down := by
    rw [descends, components_dotted]
    simp
  names := by
    rw [names, components_dotted, List.filterMap_cons_none rfl, List.filterMap_map]
    exact List.filterMap_some
  ends := by
    intro leaf
    rcases List.eq_nil_or_concat rel with rfl | ⟨front, last, rfl⟩
    · rw [top rfl] at leaf
      contradiction
    · rw [endsInName, pieces_dotted, List.concat_eq_append, List.map_append, ← List.cons_append,
        List.map_singleton, List.getLast?_concat]
      exact decide_eq_true last.property
  same := rfl

instance : Std.Total shallower := ⟨fun a b => Nat.le_total a.1.length b.1.length⟩

instance : IsTrans _ shallower := ⟨fun _ _ _ first second => Nat.le_trans first second⟩

theorem walk_lists (disk : Disk) (root : Location) (inside : disk.isDir root = true) :
    ∃ order : List Location, order.Nodup ∧ order.Pairwise (fun earlier later => ¬later <+: earlier) ∧
      (∀ rel, rel ∈ order ↔ (disk.get (root ++ rel)).isSome = true) ∧
      List.Forall₂ (fun rel entry => ∃ node, disk.get (root ++ rel) = some node ∧ Records rel node entry)
        order (walk disk root) := by
  let sorted := (below disk root).insertionSort shallower
  have perm : sorted.Perm (below disk root) := List.perm_insertionSort _ _
  have nodup : (sorted.map Prod.fst).Nodup := (perm.map Prod.fst).nodup_iff.mpr (nodup_below disk root)
  have depths : (sorted.map Prod.fst).Pairwise (fun a b => a.length ≤ b.length) :=
    List.pairwise_map.mpr (List.pairwise_insertionSort shallower _)
  refine ⟨sorted.map Prod.fst, nodup, ?_, fun rel => ?_, ?_⟩
  · -- A proper prefix is shorter, and the walk goes by length.
    refine (depths.and nodup).imp fun ⟨shallow, different⟩ above => different ?_
    exact (above.eq_of_length_le shallow).symm
  · simp only [List.mem_map, Prod.exists, exists_and_right, exists_eq_right, perm.mem_iff, mem_below,
      Option.isSome_iff_exists]
  · refine List.forall₂_map_left_iff.mpr (List.forall₂_map_right_iff.mpr (List.forall₂_same.mpr ?_))
    rintro ⟨rel, node⟩ member
    have found := mem_below.mp (perm.mem_iff.mp member)
    refine ⟨node, found, records_dotted ?_⟩
    rintro rfl
    rw [List.append_nil, FileSystem.isDir_iff.mp inside] at found
    cases found
    rfl

end PlainArchive

def plainArchiver : Archiver where
  walk := PlainArchive.walk
  encode entries := entries.flatMap PlainArchive.putEntry
  decode content :=
    match PlainArchive.framing.drain content with
    | (entries, []) => .ok (entries.map .ok)
    | (entries, _) => .ok (entries.map .ok ++ [.error ⟨false, "broken archive"⟩])

theorem plainArchiver_faithful : plainArchiver.Faithful where
  lossless entries := by
    have stuck : PlainArchive.framing.next [] = none := rfl
    have drained := PlainArchive.framing.drain_flatMap PlainArchive.takeEntry_putEntry entries stuck
    rw [List.append_nil, List.map_id'] at drained
    simp only [plainArchiver, drained]
  walks disk root inside _ := PlainArchive.walk_lists disk root inside

/-! ## A host on which nothing fails -/

/-- The clock shows this second. -/
def DiskChoice.calm (secs : Nat) : DiskChoice where
  fault := none
  made := 0
  left := none
  gone := []
  time := some secs
  dirSize := 4096
  answer
    | .now => secs
    | call => willing.answer call

/-- The volume of server `s1` holds one directory with one file in it. -/
def Disk.sample : Disk :=
  (((FileSystem.empty).makeDirs [] (place "/srv/sky-panel/volumes/s1/world") 5).2).put
    (place "/srv/sky-panel/volumes/s1/world/level.dat") (.file ⟨[7, 7], some 0⟩)
where
  place (path : String) : Location := resolve [] (Text.bytes path)

end SkyDaemon.Agent
