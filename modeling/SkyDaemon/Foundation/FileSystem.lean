import SkyDaemon.Foundation.HashMap
import Mathlib.Data.List.Induction

/-! A hierarchical file system without links: what stands at each location, where
everything stands in a directory. The invariant is part of the type, so an operation that
would break it cannot be written down. -/
namespace SkyDaemon

inductive Node (F : Type) where
  | directory
  | file (value : F)
  /-- Neither a directory nor a regular file; it cannot be opened. -/
  | special
  deriving DecidableEq, Repr

def Node.isDirectory : Node F → Bool
  | .directory => true
  | _ => false

structure FileSystem (N F : Type) [DecidableEq N] where
  nodes : HashMap (List N) (Node F)
  root : nodes.lookup [] = some .directory
  closed : ∀ location name, (nodes.lookup (location ++ [name])).isSome = true →
    nodes.lookup location = some .directory

namespace FileSystem
variable {N F : Type} [DecidableEq N]

def get (fs : FileSystem N F) (location : List N) : Option (Node F) := fs.nodes.lookup location

def isDir (fs : FileSystem N F) (location : List N) : Bool := (fs.get location).any Node.isDirectory

/-- The root alone. -/
def empty : FileSystem N F where
  nodes := (∅ : HashMap (List N) (Node F)).insert [] .directory
  root := AList.lookup_insert _
  closed := by
    intro location name present
    rw [HashMap.lookup_insert_eq, if_neg (by simp)] at present
    simp at present

variable {fs : FileSystem N F} {location other : List N} {node : Node F} {name : N}

theorem isDir_iff : fs.isDir location = true ↔ fs.get location = some .directory := by
  unfold isDir
  cases fs.get location with
  | none => simp
  | some node => cases node <;> simp [Node.isDirectory]

theorem get_root (fs : FileSystem N F) : fs.get [] = some .directory := fs.root

theorem isDir_above (fs : FileSystem N F) {below : List N} (present : (fs.get (location ++ below)).isSome = true)
    (nonempty : below ≠ []) : fs.isDir location = true := by
  induction below using List.reverseRecOn with
  | nil => contradiction
  | append_singleton front last ih =>
    rw [← List.append_assoc] at present
    have directory := fs.closed _ _ present
    by_cases empty : front = []
    · subst front
      rw [List.append_nil] at directory
      exact isDir_iff.mpr directory
    · apply ih _ empty
      rw [get, directory]
      rfl

/-- Where nothing is, nothing is below. -/
theorem get_below (absent : fs.get location = none) (below : List N) : fs.get (location ++ below) = none := by
  by_cases nonempty : below = []
  · rw [nonempty, List.append_nil, absent]
  · rw [← Option.not_isSome_iff_eq_none]
    intro present
    rw [isDir_iff.mp (fs.isDir_above present nonempty)] at absent
    contradiction

theorem get_below_leaf (leaf : fs.isDir location = false) {below : List N} (nonempty : below ≠ []) :
    fs.get (location ++ below) = none := by
  rw [← Option.not_isSome_iff_eq_none]
  intro present
  rw [fs.isDir_above present nonempty] at leaf
  contradiction

theorem isDir_dropLast (inside : fs.isDir location = true) : fs.isDir location.dropLast = true := by
  rcases List.eq_nil_or_concat location with rfl | ⟨front, last, rfl⟩
  · exact inside
  · rw [List.concat_eq_append] at inside ⊢
    rw [List.dropLast_concat]
    exact fs.isDir_above (by rw [isDir_iff.mp inside]; rfl) (List.cons_ne_nil last [])

/-! ## Putting one node -/

/-- The location is in a directory, and no directory with its contents is replaced. -/
structure Fits (fs : FileSystem N F) (location : List N) (node : Node F) : Prop where
  nonroot : location ≠ []
  inside : fs.isDir location.dropLast = true
  leaf : node.isDirectory = true ∨ fs.isDir location = false

instance (fs : FileSystem N F) (location : List N) (node : Node F) : Decidable (fs.Fits location node) :=
  decidable_of_iff (location ≠ [] ∧ fs.isDir location.dropLast = true ∧
    (node.isDirectory = true ∨ fs.isDir location = false))
    ⟨fun ⟨nonroot, inside, leaf⟩ => ⟨nonroot, inside, leaf⟩,
      fun ⟨nonroot, inside, leaf⟩ => ⟨nonroot, inside, leaf⟩⟩

theorem closed_insert (fits : fs.Fits location node) (above : List N) (name : N)
    (present : ((fs.nodes.insert location node).lookup (above ++ [name])).isSome = true) :
    (fs.nodes.insert location node).lookup above = some .directory := by
  have directory : fs.get above = some .directory := by
    rw [HashMap.lookup_insert_eq] at present
    split at present
    · rename_i here
      have inside := fits.inside
      rw [← here, List.dropLast_concat] at inside
      exact isDir_iff.mp inside
    · exact fs.closed above name present
  rw [HashMap.lookup_insert_eq]
  split
  · rename_i here
    rcases fits.leaf with kind | free
    · cases node with
      | directory => rfl
      | file value => contradiction
      | special => contradiction
    · rw [← here, isDir_iff.mpr directory] at free
      contradiction
  · exact directory

/-- The node at the location, if it fits there. -/
def put (fs : FileSystem N F) (location : List N) (node : Node F) : FileSystem N F :=
  if fits : fs.Fits location node then
    { nodes := fs.nodes.insert location node
      root := by
        rw [HashMap.lookup_insert_eq, if_neg fits.nonroot.symm]
        exact fs.root
      closed := closed_insert fits }
  else fs

theorem get_put (fits : fs.Fits location node) (other : List N) :
    (fs.put location node).get other = if other = location then some node else fs.get other := by
  rw [put, dif_pos fits]
  exact HashMap.lookup_insert_eq ..

theorem get_put_self (fits : fs.Fits location node) : (fs.put location node).get location = some node := by
  rw [get_put fits, if_pos rfl]

/-- Putting a node changes nothing anywhere else. -/
theorem get_put_ne (fs : FileSystem N F) (node : Node F) (away : other ≠ location) :
    (fs.put location node).get other = fs.get other := by
  by_cases fits : fs.Fits location node
  · rw [get_put fits, if_neg away]
  · rw [put, dif_neg fits]

/-! ## Removing a subtree -/

def remove (fs : FileSystem N F) (location : List N) : FileSystem N F :=
  if nonroot : location = [] then fs
  else
    { nodes := fs.nodes.retain fun other _ => !decide (location <+: other)
      root := by
        rw [HashMap.lookup_retain_eq_some]
        exact ⟨fs.root, by simpa using nonroot⟩
      closed := by
        intro above name present
        obtain ⟨node, kept⟩ := Option.isSome_iff_exists.mp present
        rw [HashMap.lookup_retain_eq_some] at kept ⊢
        refine ⟨fs.closed above name (by rw [kept.1]; rfl), ?_⟩
        simp only [Bool.not_eq_true', decide_eq_false_iff_not] at kept ⊢
        exact fun inside => kept.2 (inside.trans (List.prefix_append _ _)) }

theorem get_remove (fs : FileSystem N F) (nonroot : location ≠ []) (other : List N) :
    (fs.remove location).get other = if location <+: other then none else fs.get other := by
  rw [remove, dif_neg nonroot]
  apply Option.ext
  intro node
  rw [get, HashMap.lookup_retain_eq_some]
  split
  · rename_i inside
    simp [inside]
  · rename_i outside
    simp [outside, get]

/-! ## Moving a subtree -/

/-- Where the location is once `source` has become `target`. -/
def moved (source target location : List N) : List N :=
  if source <+: location then target ++ location.drop source.length else location

/-- The target is in a directory and not below the source, and holds nothing. -/
structure Movable (fs : FileSystem N F) (source target : List N) : Prop where
  nonroot : source ≠ []
  nonroot' : target ≠ []
  inside : fs.isDir target.dropLast = true
  apart : ¬source <+: target
  vacant : ∀ entry ∈ fs.nodes.entries, target <+: entry.1 → entry.1 = target

instance (fs : FileSystem N F) (source target : List N) : Decidable (fs.Movable source target) :=
  decidable_of_iff (source ≠ [] ∧ target ≠ [] ∧ fs.isDir target.dropLast = true ∧ ¬source <+: target ∧
    ∀ entry ∈ fs.nodes.entries, target <+: entry.1 → entry.1 = target)
    ⟨fun ⟨a, b, c, d, e⟩ => ⟨a, b, c, d, e⟩, fun ⟨a, b, c, d, e⟩ => ⟨a, b, c, d, e⟩⟩

section Move
variable {source target : List N}

theorem moved_append (source target rest : List N) : moved source target (source ++ rest) = target ++ rest := by
  rw [moved, if_pos (List.prefix_append _ _), List.drop_left]

theorem moved_outside (outside : ¬source <+: location) : moved source target location = location := if_neg outside

/-- The nodes under their new locations; what stood at the target is gone. -/
def movedEntries (fs : FileSystem N F) (source target : List N) : List (Sigma fun _ : List N => Node F) :=
  (fs.nodes.entries.filter fun entry => entry.1 ≠ target).map fun entry => ⟨moved source target entry.1, entry.2⟩

theorem mem_movedEntries : ⟨location, node⟩ ∈ fs.movedEntries source target ↔
    ∃ old, old ≠ target ∧ moved source target old = location ∧ fs.get old = some node := by
  simp only [movedEntries, List.mem_map, List.mem_filter, decide_eq_true_eq]
  constructor
  · rintro ⟨⟨old, value⟩, ⟨member, other⟩, same⟩
    cases same
    exact ⟨old, other, rfl, AList.mem_lookup_iff.mpr member⟩
  · rintro ⟨old, other, rfl, found⟩
    exact ⟨⟨old, node⟩, ⟨AList.mem_lookup_iff.mp found, other⟩, rfl⟩

theorem nodupKeys_movedEntries (movable : fs.Movable source target) :
    (fs.movedEntries source target).NodupKeys := by
  have keys : (fs.movedEntries source target).keys =
      ((fs.nodes.entries.filter fun entry => entry.1 ≠ target).keys).map (moved source target) := by
    simp [movedEntries, List.keys]
  rw [List.NodupKeys, keys]
  refine List.Nodup.map_on ?_ (fs.nodes.nodupKeys.sublist List.filter_sublist)
  intro first inFirst second inSecond same
  -- Nothing else is at or below the target, so only moved locations arrive there.
  have away {location : List N}
      (member : location ∈ (fs.nodes.entries.filter fun entry => entry.1 ≠ target).keys) :
      ¬target <+: location := by
    obtain ⟨value, kept⟩ := List.exists_of_mem_keys member
    rw [List.mem_filter, decide_eq_true_eq] at kept
    exact fun below => kept.2 (movable.vacant _ kept.1 below)
  by_cases inside : source <+: first
  · obtain ⟨rest, rfl⟩ := inside
    rw [moved_append] at same
    by_cases inside' : source <+: second
    · obtain ⟨rest', rfl⟩ := inside'
      rw [moved_append] at same
      rw [List.append_cancel_left same]
    · rw [moved_outside inside'] at same
      exact absurd ⟨rest, same⟩ (away inSecond)
  · rw [moved_outside inside] at same
    by_cases inside' : source <+: second
    · obtain ⟨rest', rfl⟩ := inside'
      rw [moved_append] at same
      exact absurd ⟨rest', same.symm⟩ (away inFirst)
    · rwa [moved_outside inside'] at same

theorem closed_move (movable : fs.Movable source target) (above : List N) (name : N)
    (present : ⟨above ++ [name], node⟩ ∈ fs.movedEntries source target) :
    ⟨above, .directory⟩ ∈ fs.movedEntries source target := by
  obtain ⟨old, other, arrived, found⟩ := mem_movedEntries.mp present
  rw [mem_movedEntries]
  have unmoved {location : List N} (inside : location <+: target) : ¬source <+: location :=
    fun below => movable.apart (below.trans inside)
  by_cases inside : source <+: old
  · obtain ⟨rest, rfl⟩ := inside
    rw [moved_append] at arrived
    rcases List.eq_nil_or_concat rest with rfl | ⟨front, last, rfl⟩
    · rw [List.append_nil] at arrived
      have parent := movable.inside
      rw [arrived, List.dropLast_concat] at parent
      have before : above <+: target := ⟨[name], arrived.symm⟩
      refine ⟨above, ?_, moved_outside (unmoved before), isDir_iff.mp parent⟩
      intro same
      have := congrArg List.length (same ▸ arrived)
      simp at this
    · rw [List.concat_eq_append, ← List.append_assoc] at arrived found
      obtain ⟨rfl, -⟩ := List.append_inj' arrived rfl
      refine ⟨source ++ front, ?_, moved_append _ _ _, fs.closed _ last (by rw [← get, found]; rfl)⟩
      exact fun same => movable.apart ⟨front, same⟩
  · rw [moved_outside inside] at arrived
    subst arrived
    refine ⟨above, ?_, moved_outside fun below => inside (below.trans (List.prefix_append _ _)),
      fs.closed above name (by rw [← get, found]; rfl)⟩
    rintro rfl
    exact other (movable.vacant ⟨above ++ [name], node⟩ (AList.mem_lookup_iff.mp found) (List.prefix_append _ _))

/-- The subtree at its new place, if it can go there. -/
def move (fs : FileSystem N F) (source target : List N) : FileSystem N F :=
  if movable : fs.Movable source target then
    { nodes := ⟨fs.movedEntries source target, nodupKeys_movedEntries movable⟩
      root := by
        refine AList.mem_lookup_iff.mpr (mem_movedEntries.mpr ⟨[], movable.nonroot'.symm, ?_, fs.root⟩)
        exact moved_outside fun below => movable.nonroot (List.prefix_nil.mp below)
      closed := by
        intro above name present
        obtain ⟨node, found⟩ := Option.isSome_iff_exists.mp present
        exact AList.mem_lookup_iff.mpr (closed_move movable above name (AList.mem_lookup_iff.mp found)) }
  else fs

end Move

/-! ## The contents of a directory -/

/-- The names in a directory with what they stand for, in no particular order. -/
def children (fs : FileSystem N F) (location : List N) : List (N × Node F) :=
  fs.nodes.entries.filterMap fun entry =>
    match entry.1.getLast? with
    | some name => if entry.1 = location ++ [name] then some (name, entry.2) else none
    | none => none

theorem mem_children : (name, node) ∈ fs.children location ↔ fs.get (location ++ [name]) = some node := by
  unfold children
  rw [List.mem_filterMap]
  constructor
  · rintro ⟨⟨key, value⟩, member, found⟩
    dsimp only at found
    split at found
    · split at found
      · rename_i here
        cases found
        rw [here] at member
        exact AList.mem_lookup_iff.mpr member
      · contradiction
    · contradiction
  · intro found
    refine ⟨⟨location ++ [name], node⟩, AList.mem_lookup_iff.mp found, ?_⟩
    simp

theorem nodup_children (fs : FileSystem N F) (location : List N) : (fs.children location).Nodup := by
  refine List.Nodup.filterMap ?_ fs.nodes.nodupKeys.nodup
  rintro ⟨first, value⟩ ⟨second, value'⟩ ⟨name, node⟩ inFirst inSecond
  have key {entry : Sigma fun _ : List N => Node F} (kept : (name, node) ∈ (match entry.1.getLast? with
      | some name => if entry.1 = location ++ [name] then some (name, entry.2) else none
      | none => none : Option (N × Node F))) : entry = ⟨location ++ [name], node⟩ := by
    obtain ⟨found, value⟩ := entry
    dsimp only at kept
    split at kept
    · split at kept
      · rename_i here
        cases kept
        rw [here]
      · contradiction
    · contradiction
  rw [key inFirst, key inSecond]

theorem children_eq_nil (absent : fs.get location = none) : fs.children location = [] := by
  rw [List.eq_nil_iff_forall_not_mem]
  rintro ⟨name, node⟩ member
  have directory := fs.closed location name (by rw [← get, mem_children.mp member]; rfl)
  rw [← get, absent] at directory
  contradiction

/-- One name apart from the others. -/
theorem children_perm_split (fs : FileSystem N F) (location : List N) (name : N) :
    (fs.children location).Perm ((fs.get (location ++ [name])).toList.map (Prod.mk name) ++
      (fs.children location).filter (·.1 ≠ name)) := by
  have nodup : ((fs.get (location ++ [name])).toList.map (Prod.mk name) ++
      (fs.children location).filter (·.1 ≠ name)).Nodup := by
    refine List.nodup_append.mpr ⟨?_, (fs.nodup_children location).filter _, ?_⟩
    · cases fs.get (location ++ [name]) <;> simp
    · rintro ⟨_, node⟩ own ⟨other, node'⟩ kept same
      obtain ⟨value, -, given⟩ := List.mem_map.mp own
      cases given
      cases same
      simp at kept
  refine (List.perm_ext_iff_of_nodup (fs.nodup_children location) nodup).mpr ?_
  rintro ⟨other, node⟩
  simp only [List.mem_append, List.mem_map, List.mem_filter, Option.mem_toList, Prod.mk.injEq,
    decide_eq_true_eq, mem_children]
  constructor
  · intro found
    by_cases same : other = name
    · subst same
      exact .inl ⟨node, found, rfl, rfl⟩
    · exact .inr ⟨found, same⟩
  · rintro (⟨value, found, rfl, rfl⟩ | ⟨found, -⟩)
    · exact found
    · exact found

theorem filter_children_perm {fs' : FileSystem N F} {location : List N} (keep : N → Bool)
    (same : ∀ name, keep name = true → fs'.get (location ++ [name]) = fs.get (location ++ [name])) :
    ((fs'.children location).filter (keep ·.1)).Perm ((fs.children location).filter (keep ·.1)) := by
  refine (List.perm_ext_iff_of_nodup ((nodup_children _ _).filter _) ((nodup_children _ _).filter _)).mpr ?_
  rintro ⟨name, node⟩
  simp only [List.mem_filter, mem_children]
  constructor
  · rintro ⟨found, kept⟩
    exact ⟨same name kept ▸ found, kept⟩
  · rintro ⟨found, kept⟩
    exact ⟨(same name kept).symm ▸ found, kept⟩

/-! ## Making directories -/

/-- The directories along `names` from `here`, made where they are missing, at most `limit`
of them. The result tells whether all of them are there. -/
def makeDirs (fs : FileSystem N F) (here : List N) : List N → Nat → Bool × FileSystem N F
  | [], _ => (true, fs)
  | name :: rest, limit =>
      match fs.get (here ++ [name]), limit with
      | some .directory, limit => fs.makeDirs (here ++ [name]) rest limit
      | none, limit + 1 => (fs.put (here ++ [name]) .directory).makeDirs (here ++ [name]) rest limit
      | _, _ => (false, fs)

/-- Nothing changes but directories that appear on the way to a location. -/
def Leads (fs : FileSystem N F) (target : List N) (after : FileSystem N F) : Prop :=
  ∀ location, after.get location = fs.get location ∨
    fs.get location = none ∧ after.get location = some .directory ∧ location <+: target

theorem Leads.refl (fs : FileSystem N F) (target : List N) : fs.Leads target fs := fun _ => .inl rfl

theorem Leads.keeps {after : FileSystem N F} (leads : fs.Leads target after)
    (present : fs.get location = some node) : after.get location = some node := by
  rcases leads location with same | ⟨absent, -⟩
  · rw [same, present]
  · rw [present] at absent
    contradiction

/-- What stands below the location is as it was. -/
theorem Leads.below {after : FileSystem N F} {target rel : List N} (leads : fs.Leads target after) (deeper : rel ≠ []) :
    after.get (target ++ rel) = fs.get (target ++ rel) := by
  rcases leads (target ++ rel) with same | ⟨-, -, before⟩
  · exact same
  · have short := before.length_le
    rw [List.length_append] at short
    exact absurd (List.eq_nil_of_length_eq_zero (by omega)) deeper

theorem fits_directory (inside : fs.isDir location = true) : fs.Fits (location ++ [name]) .directory :=
  ⟨by simp, by rwa [List.dropLast_concat], .inl rfl⟩

theorem makeDirs_leads (inside : fs.isDir here = true) (names : List N) (limit : Nat) :
    fs.Leads (here ++ names) (fs.makeDirs here names limit).2 ∧
      ((fs.makeDirs here names limit).1 = true → (fs.makeDirs here names limit).2.isDir (here ++ names) = true) := by
  induction names generalizing fs here limit with
  | nil => exact ⟨.refl _ _, fun _ => by simpa [makeDirs] using inside⟩
  | cons name rest ih =>
    have joined : here ++ name :: rest = here ++ [name] ++ rest := by simp
    rw [joined]
    unfold makeDirs
    split
    · rename_i directory
      exact ih (isDir_iff.mpr directory) _
    · rename_i limit absent
      have fits : fs.Fits (here ++ [name]) .directory := fits_directory inside
      have made := get_put_self fits
      obtain ⟨leads, reached⟩ := ih (isDir_iff.mpr made) limit
      refine ⟨fun location => ?_, reached⟩
      by_cases own : location = here ++ [name]
      · subst own
        exact .inr ⟨absent, leads.keeps made, List.prefix_append _ _⟩
      · have unchanged := get_put_ne fs .directory own
        rw [← unchanged]
        exact leads location
    · exact ⟨.refl _ _, by simp⟩

/-- With enough to spend, only something that is no directory stands in the way. -/
theorem makeDirs_ok (inside : fs.isDir here = true) (names : List N) {limit : Nat} (enough : names.length ≤ limit)
    (clear : ∀ front, front <+: names → fs.get (here ++ front) = none ∨ fs.isDir (here ++ front) = true) :
    (fs.makeDirs here names limit).1 = true := by
  induction names generalizing fs here limit with
  | nil => rfl
  | cons name rest ih =>
    have next : [name] <+: name :: rest := ⟨rest, rfl⟩
    have clear' {front : List N} (inside : front <+: rest) :
        fs.get (here ++ [name] ++ front) = none ∨ fs.isDir (here ++ [name] ++ front) = true := by
      have := clear (name :: front) (List.cons_prefix_cons.mpr ⟨rfl, inside⟩)
      simpa using this
    obtain ⟨limit, rfl⟩ : ∃ spare, limit = spare + 1 := ⟨limit - 1, by simp at enough; omega⟩
    have enough' : rest.length ≤ limit := by simpa using enough
    unfold makeDirs
    rcases clear [name] next with absent | directory
    · rw [absent]
      have fits : fs.Fits (here ++ [name]) .directory := fits_directory inside
      apply ih (isDir_iff.mpr (get_put_self fits)) enough'
      intro front below
      by_cases own : here ++ [name] ++ front = here ++ [name]
      · exact .inr (isDir_iff.mpr (by rw [own]; exact get_put_self fits))
      · rw [isDir, get_put_ne fs .directory own]
        exact clear' below
    · rw [isDir_iff.mp directory]
      exact ih directory (Nat.le_succ_of_le enough') fun front => clear'

end FileSystem
end SkyDaemon
