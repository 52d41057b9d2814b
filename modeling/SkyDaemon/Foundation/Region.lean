import SkyDaemon.Foundation.FileSystem

/-! Regions of a file system. What is read inside a region depends on its entries alone, and
what is done outside leaves them as they are, in the same order. -/
namespace SkyDaemon.FileSystem
variable {N F : Type} [DecidableEq N]

/-- The entries of the region, in their order. -/
def within (fs : FileSystem N F) (region : List N → Bool) : List (Sigma fun _ : List N => Node F) :=
  fs.nodes.entries.filter (region ·.1)

/-- Everything at or below one of the directories. -/
def below (dirs : List (List N)) (location : List N) : Bool := dirs.any fun dir => decide (dir <+: location)

theorem below_iff {dirs : List (List N)} {location : List N} :
    below dirs location = true ↔ ∃ dir ∈ dirs, dir <+: location := by
  simp [below]

theorem below_append {dirs : List (List N)} {location : List N} (inside : below dirs location = true)
    (rest : List N) : below dirs (location ++ rest) = true := by
  obtain ⟨dir, member, front⟩ := below_iff.mp inside
  exact below_iff.mpr ⟨dir, member, front.trans (List.prefix_append _ _)⟩

section Entries
variable {region : List N → Bool}

theorem dlookup_filter {location : List N} (inside : region location = true)
    (entries : List (Sigma fun _ : List N => Node F)) :
    (entries.filter (region ·.1)).dlookup location = entries.dlookup location := by
  induction entries with
  | nil => rfl
  | cons entry rest ih =>
    obtain ⟨other, node⟩ := entry
    by_cases same : location = other
    · subst same
      simp [inside]
    · have skip (tail : List (Sigma fun _ : List N => Node F)) :
          (⟨other, node⟩ :: tail).dlookup location = tail.dlookup location := List.dlookup_cons_ne tail _ same
      by_cases kept : region other = true
      · rw [List.filter_cons_of_pos (by exact kept), skip, skip, ih]
      · rw [List.filter_cons_of_neg (by exact kept), skip, ih]

theorem filter_kerase_outside {location : List N} (outside : region location = false)
    (entries : List (Sigma fun _ : List N => Node F)) :
    (entries.kerase location).filter (region ·.1) = entries.filter (region ·.1) := by
  induction entries with
  | nil => rfl
  | cons entry rest ih =>
    by_cases same : location = entry.1
    · rw [List.kerase_cons_eq same, List.filter_cons_of_neg (by simp [← same, outside])]
    · rw [List.kerase_cons_ne same, List.filter_cons, List.filter_cons, ih]

theorem filter_kerase_inside {location : List N} (inside : region location = true)
    (entries : List (Sigma fun _ : List N => Node F)) :
    (entries.kerase location).filter (region ·.1) = (entries.filter (region ·.1)).kerase location := by
  induction entries with
  | nil => rfl
  | cons entry rest ih =>
    by_cases same : location = entry.1
    · rw [List.kerase_cons_eq same, List.filter_cons_of_pos (by simp [← same, inside]), List.kerase_cons_eq same]
    · rw [List.kerase_cons_ne same, List.filter_cons, List.filter_cons, ih]
      split
      · rw [List.kerase_cons_ne same]
      · rfl

end Entries

/-! ## Reading inside a region -/

section Reading
variable {region : List N → Bool} {fs fs' : FileSystem N F} {location : List N}

theorem get_within (fs : FileSystem N F) (inside : region location = true) :
    fs.get location = (fs.within region).dlookup location :=
  (dlookup_filter inside fs.nodes.entries).symm

theorem get_congr (same : fs.within region = fs'.within region) (inside : region location = true) :
    fs.get location = fs'.get location := by
  rw [get_within fs inside, get_within fs' inside, same]

theorem isDir_congr (same : fs.within region = fs'.within region) (inside : region location = true) :
    fs.isDir location = fs'.isDir location := by
  rw [isDir, isDir, get_congr same inside]

/-- Agreement on a region is agreement on each part of it. -/
theorem within_part {part : List N → Bool} (same : fs.within region = fs'.within region)
    (inside : ∀ other, part other = true → region other = true) : fs.within part = fs'.within part := by
  have only (fs : FileSystem N F) : fs.within part = (fs.within region).filter (part ·.1) := by
    rw [within, within, List.filter_filter]
    apply List.filter_congr
    intro entry _
    by_cases kept : part entry.1 = true
    · rw [kept, inside _ kept]
      rfl
    · rw [Bool.eq_false_iff.mpr kept]
      rfl
  rw [only fs, only fs', same]

theorem filterMap_within (fs : FileSystem N F) (region : List N → Bool)
    (f : (Sigma fun _ : List N => Node F) → Option β)
    (nothing : ∀ entry, region entry.1 = false → f entry = none) :
    fs.nodes.entries.filterMap f = (fs.within region).filterMap f := by
  rw [within, List.filterMap_filter]
  apply List.filterMap_congr
  intro entry _
  by_cases kept : region entry.1 = true
  · rw [if_pos kept]
  · rw [if_neg kept, nothing entry (Bool.eq_false_iff.mpr kept)]

theorem children_congr (same : fs.within region = fs'.within region)
    (inside : ∀ name, region (location ++ [name]) = true) : fs.children location = fs'.children location := by
  unfold children
  rw [filterMap_within fs region, filterMap_within fs' region, same]
  all_goals
    intro entry outside
    split
    · rename_i name _
      apply if_neg
      intro here
      rw [here, inside name] at outside
      contradiction
    · rfl

end Reading

/-! ## Changes -/

section Changes
variable {region : List N → Bool} {fs fs' : FileSystem N F} {location : List N} {node : Node F}

theorem within_put_outside (fs : FileSystem N F) (node : Node F) (outside : region location = false) :
    (fs.put location node).within region = fs.within region := by
  rw [put]
  split
  · rw [within, AList.entries_insert, List.filter_cons_of_neg (by simp [outside]), filter_kerase_outside outside]
    rfl
  · rfl

theorem within_put_inside (fits : fs.Fits location node) (inside : region location = true) :
    (fs.put location node).within region = ⟨location, node⟩ :: (fs.within region).kerase location := by
  rw [put, dif_pos fits, within, AList.entries_insert, List.filter_cons_of_pos (by exact inside),
    filter_kerase_inside inside]
  rfl

theorem within_put_congr (same : fs.within region = fs'.within region) (inside : region location = true)
    (above : fs.isDir location.dropLast = fs'.isDir location.dropLast) :
    (fs.put location node).within region = (fs'.put location node).within region := by
  have leaf := isDir_congr same inside
  by_cases fits : fs.Fits location node
  · have fits' : fs'.Fits location node := ⟨fits.nonroot, above ▸ fits.inside, leaf ▸ fits.leaf⟩
    rw [within_put_inside fits inside, within_put_inside fits' inside, same]
  · have unfit : ¬fs'.Fits location node := fun fits' =>
      fits ⟨fits'.nonroot, above ▸ fits'.inside, leaf ▸ fits'.leaf⟩
    rw [put, dif_neg fits, put, dif_neg unfit, same]

theorem within_remove (fs : FileSystem N F) (nonroot : location ≠ []) (region : List N → Bool) :
    (fs.remove location).within region = (fs.within region).filter fun entry => !decide (location <+: entry.1) := by
  simp only [remove, dif_neg nonroot, within, HashMap.retain, List.filter_filter, Bool.and_comm]

theorem within_remove_congr (same : fs.within region = fs'.within region) :
    (fs.remove location).within region = (fs'.remove location).within region := by
  by_cases root : location = []
  · rw [remove, dif_pos root, remove, dif_pos root, same]
  · rw [within_remove fs root, within_remove fs' root, same]

theorem within_remove_outside (fs : FileSystem N F) (outside : ∀ rest, region (location ++ rest) = false) :
    (fs.remove location).within region = fs.within region := by
  by_cases root : location = []
  · rw [remove, dif_pos root]
  · rw [within_remove fs root, List.filter_eq_self]
    intro entry member
    rw [within, List.mem_filter] at member
    rw [Bool.not_eq_true', decide_eq_false_iff_not]
    rintro ⟨rest, here⟩
    rw [← here, outside rest] at member
    exact Bool.false_ne_true member.2

/-! A subtree that moves inside the region, or outside of it. -/

section Move
variable {source target : List N}

theorem within_move (movable : fs.Movable source target)
    (stays : ∀ other, region (moved source target other) = region other) :
    (fs.move source target).within region =
      ((fs.within region).filter fun entry => entry.1 ≠ target).map
        fun entry => ⟨moved source target entry.1, entry.2⟩ := by
  rw [move, dif_pos movable]
  change (fs.movedEntries source target).filter _ = _
  rw [movedEntries, List.filter_map, within, List.filter_filter, List.filter_filter]
  congr 1
  apply List.filter_congr
  intro entry _
  simp only [Function.comp_apply, stays, Bool.and_comm]

theorem moved_inside (deep : ∀ other rest, region other = true → region (other ++ rest) = true)
    (inside : region source = true) (inside' : region target = true) (other : List N) :
    region (moved source target other) = region other := by
  by_cases here : source <+: other
  · obtain ⟨rest, rfl⟩ := here
    rw [moved_append, deep _ _ inside, deep _ _ inside']
  · rw [moved_outside here]

/-- Whether a subtree can move is seen at the target and below it. -/
theorem movable_congr (same : fs.within region = fs'.within region)
    (deep : ∀ rest, region (target ++ rest) = true) (above : fs.isDir target.dropLast = fs'.isDir target.dropLast) :
    fs.Movable source target ↔ fs'.Movable source target := by
  have vacant {fs fs' : FileSystem N F} (same : fs.within region = fs'.within region)
      (empty : ∀ entry ∈ fs.nodes.entries, target <+: entry.1 → entry.1 = target) :
      ∀ entry ∈ fs'.nodes.entries, target <+: entry.1 → entry.1 = target := by
    rintro entry member ⟨rest, here⟩
    have kept : entry ∈ fs'.within region := List.mem_filter.mpr ⟨member, by rw [← here]; exact deep rest⟩
    rw [← same, within, List.mem_filter] at kept
    exact empty entry kept.1 ⟨rest, here⟩
  constructor
  · rintro ⟨nonroot, nonroot', inside, apart, empty⟩
    exact ⟨nonroot, nonroot', above ▸ inside, apart, vacant same empty⟩
  · rintro ⟨nonroot, nonroot', inside, apart, empty⟩
    exact ⟨nonroot, nonroot', above ▸ inside, apart, vacant same.symm empty⟩

theorem within_move_congr (same : fs.within region = fs'.within region)
    (deep : ∀ other rest, region other = true → region (other ++ rest) = true) (inside : region source = true)
    (inside' : region target = true) (above : fs.isDir target.dropLast = fs'.isDir target.dropLast) :
    (fs.move source target).within region = (fs'.move source target).within region := by
  have alike : fs.Movable source target ↔ fs'.Movable source target :=
    movable_congr same (fun rest => deep _ rest inside') above
  have stays := moved_inside deep inside inside'
  by_cases movable : fs.Movable source target
  · rw [within_move movable stays, within_move (alike.mp movable) stays, same]
  · rw [move, dif_neg movable, move, dif_neg (movable ∘ alike.mpr), same]

theorem within_move_outside (fs : FileSystem N F) (outside : ∀ rest, region (source ++ rest) = false)
    (outside' : ∀ rest, region (target ++ rest) = false) :
    (fs.move source target).within region = fs.within region := by
  by_cases movable : fs.Movable source target
  · have stays (other : List N) : region (moved source target other) = region other := by
      by_cases here : source <+: other
      · obtain ⟨rest, rfl⟩ := here
        rw [moved_append, outside, outside']
      · rw [moved_outside here]
    have away {entry : Sigma fun _ : List N => Node F} (member : entry ∈ fs.within region) :
        ¬source <+: entry.1 ∧ entry.1 ≠ target := by
      have kept := (List.mem_filter.mp member).2
      constructor
      · rintro ⟨rest, here⟩
        rw [← here, outside rest] at kept
        contradiction
      · intro here
        have free := outside' []
        rw [List.append_nil, ← here, kept] at free
        contradiction
    rw [within_move movable stays, List.filter_eq_self.mpr fun entry member => by simpa using (away member).2]
    conv_rhs => rw [← List.map_id (fs.within region)]
    apply List.map_congr_left
    intro entry member
    rw [moved_outside (away member).1]
    rfl
  · rw [move, dif_neg movable]

end Move

/-! Directories that are made on the way to a location. -/

/-- The walk passes over what is a directory already. -/
theorem makeDirs_append (here : List N) {base : List N} (there : fs.isDir (here ++ base) = true) (rest : List N)
    (limit : Nat) :
    fs.makeDirs here (base ++ rest) limit = fs.makeDirs (here ++ base) rest limit := by
  induction base generalizing here with
  | nil => simp
  | cons name base ih =>
    have joined : here ++ name :: base = here ++ [name] ++ base := by simp
    rw [joined] at there ⊢
    have directory : fs.isDir (here ++ [name]) = true := by
      by_cases last : base = []
      · rwa [last, List.append_nil] at there
      · exact fs.isDir_above (by rw [isDir_iff.mp there]; rfl) last
    rw [List.cons_append, makeDirs]
    exacts [ih _ there, isDir_iff.mp directory]

theorem within_makeDirs_congr {here : List N} (same : fs.within region = fs'.within region)
    (directory : fs.isDir here = true) (directory' : fs'.isDir here = true) (names : List N) (limit : Nat)
    (inside : ∀ front, front ≠ [] → front <+: names → region (here ++ front) = true) :
    (fs.makeDirs here names limit).1 = (fs'.makeDirs here names limit).1 ∧
      (fs.makeDirs here names limit).2.within region = (fs'.makeDirs here names limit).2.within region := by
  induction names generalizing fs fs' here limit with
  | nil => exact ⟨rfl, same⟩
  | cons name rest ih =>
    have next : region (here ++ [name]) = true := inside [name] (by simp) ⟨rest, rfl⟩
    have deeper (front : List N) (_ : front ≠ []) (on : front <+: rest) : region (here ++ [name] ++ front) = true := by
      rw [List.append_assoc]
      exact inside _ (by simp) (List.cons_prefix_cons.mpr ⟨rfl, on⟩)
    have found := get_congr same next
    unfold makeDirs
    rw [← found]
    split
    · rename_i there
      exact ih same (isDir_iff.mpr there) (isDir_iff.mpr (found ▸ there)) _ deeper
    · have made {fs : FileSystem N F} (directory : fs.isDir here = true) :
          (fs.put (here ++ [name]) .directory).isDir (here ++ [name]) = true :=
        isDir_iff.mpr (get_put_self (fits_directory directory))
      refine ih (within_put_congr same next ?_) (made directory) (made directory') _ deeper
      rw [List.dropLast_concat, directory, directory']
    · exact ⟨rfl, same⟩

theorem within_makeDirs_outside {here : List N} (names : List N) (limit : Nat)
    (outside : ∀ front, front ≠ [] → front <+: names → region (here ++ front) = false) :
    (fs.makeDirs here names limit).2.within region = fs.within region := by
  induction names generalizing fs here limit with
  | nil => rfl
  | cons name rest ih =>
    have next : region (here ++ [name]) = false := outside [name] (by simp) ⟨rest, rfl⟩
    have deeper (front : List N) (_ : front ≠ []) (on : front <+: rest) : region (here ++ [name] ++ front) = false := by
      rw [List.append_assoc]
      exact outside _ (by simp) (List.cons_prefix_cons.mpr ⟨rfl, on⟩)
    unfold makeDirs
    split
    · exact ih _ deeper
    · rw [ih _ deeper, within_put_outside fs .directory next]
    · rfl

end Changes
end SkyDaemon.FileSystem
