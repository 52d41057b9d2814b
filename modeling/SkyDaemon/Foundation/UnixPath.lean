import Mathlib.Data.List.DropRight

/-! Unix paths as `std::path` handles them: bytes, the components of a path,
joining, the parent, and the location a path names once `.` and `..` are resolved
lexically. -/
namespace SkyDaemon.UnixPath

abbrev OsPath := List UInt8

def slash : UInt8 := 47
def dot : UInt8 := 46

/-- A name a directory entry can have. -/
def Plain (name : List UInt8) : Prop :=
  name ≠ [] ∧ name ≠ [dot] ∧ name ≠ [dot, dot] ∧ slash ∉ name

instance (name : List UInt8) : Decidable (Plain name) :=
  inferInstanceAs (Decidable (_ ∧ _ ∧ _ ∧ _))

abbrev FileName := { name : List UInt8 // Plain name }

inductive Component where
  | rootDir
  | curDir
  | parentDir
  | normal (name : FileName)
  deriving DecidableEq

def hasRoot (path : OsPath) : Bool := path.head? == some slash

def pieces (path : OsPath) : List (List UInt8) := path.splitOn slash

/-- What stands between two separators; an empty piece and an inner `.` are nothing. -/
def inner (piece : List UInt8) : Option Component :=
  if plain : Plain piece then some (.normal ⟨piece, plain⟩)
  else if piece = [dot, dot] then some .parentDir
  else none

/-- The root, or a leading `.` of a relative path. -/
def leading (path : OsPath) : List Component :=
  if hasRoot path then [.rootDir]
  else if (pieces path).head? = some [dot] then [.curDir]
  else []

def components (path : OsPath) : List Component :=
  leading path ++ (pieces path).filterMap inner

/-- `Path::join`: an absolute part replaces the base. -/
def join (base part : OsPath) : OsPath :=
  if hasRoot part then part
  else if base = [] ∨ base.getLast? = some slash then base ++ part
  else base ++ slash :: part

/-- Pieces that are no component behind the first one. -/
def skipped (piece : List UInt8) : Bool := piece == [] || piece == [dot]

/-- `Path::parent`: the path without its last component, cut back to the component before it. -/
def parent (path : OsPath) : Option OsPath :=
  match hasRoot path, pieces path with
  | _, [] => none
  | true, _ :: rest =>
      let body := rest.rdropWhile skipped
      if body = [] then none
      else some (slash :: [slash].intercalate (body.dropLast.rdropWhile skipped))
  | false, first :: rest =>
      let body := rest.rdropWhile skipped
      if body = [] then if first = [] then none else some []
      else some ([slash].intercalate (first :: body.dropLast.rdropWhile skipped))

/-- A directory, as the names that lead to it from the root. -/
abbrev Location := List FileName

def walk (here : Location) : Component → Location
  | .rootDir => []
  | .curDir => here
  | .parentDir => here.dropLast
  | .normal name => here ++ [name]

/-- The location a path names for a process in the working directory `cwd`. -/
def resolve (cwd : Location) (path : OsPath) : Location := (components path).foldl walk cwd

/-- The path ends in a name: not in a separator, `.` or `..`. -/
def endsInName (path : OsPath) : Bool := (pieces path).getLast?.any fun piece => decide (Plain piece)

/-! ## Pieces -/

theorem pieces_nil : pieces [] = [[]] := List.splitOn_nil _

theorem pieces_append (base part : OsPath) :
    pieces (base ++ slash :: part) = pieces base ++ pieces part :=
  List.splitOn_append_cons_self base part

theorem pieces_slash (part : OsPath) : pieces (slash :: part) = [] :: pieces part := by
  simpa only [List.nil_append, pieces_nil, List.cons_append] using pieces_append [] part

theorem pieces_cons (other : byte ≠ slash) :
    pieces (byte :: rest) = (pieces rest).modifyHead (List.cons byte) := by
  rw [pieces, List.splitOn_cons_eq_if_modifyHead, if_neg (by simpa using other), pieces]

theorem pieces_plain (free : slash ∉ name) : pieces name = [name] := List.splitOn_eq_singleton free

theorem pieces_intercalate (free : ∀ piece ∈ list, slash ∉ piece) (nonempty : list ≠ []) :
    pieces ([slash].intercalate list) = list :=
  List.splitOn_intercalate slash free nonempty

theorem inner_nil : inner [] = none := by decide

theorem inner_normal (name : FileName) : inner name.val = some (.normal name) :=
  dif_pos name.property

theorem pieces_free (path : OsPath) : ∀ piece ∈ pieces path, slash ∉ piece := by
  induction path with
  | nil => simp [pieces_nil]
  | cons byte rest ih =>
    by_cases separator : byte = slash
    · rw [separator, pieces_slash]
      simpa using ih
    · intro piece member
      rw [pieces_cons separator] at member
      cases found : pieces rest with
      | nil => simp [found] at member
      | cons first others =>
        rw [found] at ih member
        rcases List.mem_cons.mp member with rfl | later
        · have free := ih first List.mem_cons_self
          simpa [Ne.symm separator] using free
        · exact ih piece (List.mem_cons_of_mem _ later)

theorem pieces_ne_nil (path : OsPath) : pieces path ≠ [] := List.splitOn_ne_nil _ _

/-- A path is rooted exactly when its first piece is empty and not its only one. -/
theorem hasRoot_iff (path : OsPath) :
    hasRoot path = true ↔ ∃ rest, rest ≠ [] ∧ pieces path = [] :: rest := by
  cases path with
  | nil => simp [hasRoot, pieces_nil]
  | cons byte rest =>
    by_cases separator : byte = slash
    · rw [separator, pieces_slash]
      simp [hasRoot, pieces_ne_nil]
    · rw [pieces_cons separator]
      cases found : pieces rest with
      | nil => exact absurd found (pieces_ne_nil rest)
      | cons first others => simp [hasRoot, separator]

theorem inner_isSome (free : slash ∉ piece) (kept : skipped piece = false) :
    ∃ component, inner piece = some component := by
  simp only [skipped, Bool.or_eq_false_iff, beq_eq_false_iff_ne] at kept
  by_cases up : piece = [dot, dot]
  · exact ⟨.parentDir, by subst up; decide⟩
  · exact ⟨_, dif_pos ⟨kept.1, kept.2, up, free⟩⟩

theorem inner_skipped (empty : skipped piece = true) : inner piece = none := by
  simp only [skipped, Bool.or_eq_true, beq_iff_eq] at empty
  rcases empty with rfl | rfl <;> decide

theorem filterMap_rdropWhile (list : List (List UInt8)) :
    (list.rdropWhile skipped).filterMap inner = list.filterMap inner := by
  induction list using List.reverseRecOn with
  | nil => rfl
  | append_singleton front last ih =>
    rw [List.rdropWhile_concat]
    split
    · rename_i empty
      rw [ih, List.filterMap_append]
      simp [inner_skipped empty]
    · rfl

/-! ## Locations -/

theorem resolve_eq (cwd : Location) (path : OsPath) : resolve cwd path =
    ((pieces path).filterMap inner).foldl walk (if hasRoot path then [] else cwd) := by
  rw [resolve, components, List.foldl_append, leading]
  split
  · rfl
  · split <;> rfl

theorem leading_append (base part : OsPath) :
    leading (base ++ slash :: part) = leading (base ++ [slash]) := by
  have root : hasRoot (base ++ slash :: part) = hasRoot (base ++ [slash]) := by
    cases base <;> rfl
  have first (part : OsPath) : (pieces (base ++ slash :: part)).head? = (pieces base).head? := by
    rw [pieces_append]
    cases split : pieces base with
    | nil => exact absurd split (pieces_ne_nil base)
    | cons piece rest => rfl
  rw [leading, leading, root, first, first]

theorem components_append (base part : OsPath) : components (base ++ slash :: part) =
    components (base ++ [slash]) ++ (pieces part).filterMap inner := by
  rw [components, components, leading_append, pieces_append, pieces_append, pieces_nil]
  simp [inner_nil]

theorem components_trailing (nonempty : base ≠ []) :
    components (base ++ [slash]) = components base := by
  have root : hasRoot (base ++ [slash]) = hasRoot base := by
    cases base with
    | nil => contradiction
    | cons byte rest => rfl
  have split : pieces (base ++ [slash]) = pieces base ++ [[]] := by
    rw [pieces_append, pieces_nil]
  have first : (pieces (base ++ [slash])).head? = (pieces base).head? := by
    rw [split]
    cases found : pieces base with
    | nil => exact absurd found (pieces_ne_nil base)
    | cons piece rest => rfl
  rw [components, components, leading, leading, root, first, split]
  simp [inner_nil]

/-- A relative part adds its own components behind those of the base. -/
theorem components_join (relative : hasRoot part = false) (nonempty : base ≠ []) :
    components (join base part) = components base ++ (pieces part).filterMap inner := by
  rw [join, relative, if_neg Bool.false_ne_true]
  split
  · rename_i closed
    obtain ⟨front, rfl⟩ := List.getLast?_eq_some_iff.mp (closed.resolve_left nonempty)
    rw [List.append_assoc]
    exact components_append front part
  · rw [components_append, components_trailing nonempty]

theorem join_nil (relative : hasRoot part = false) : join [] part = part := by
  rw [join, relative]
  rfl

theorem resolve_join (cwd : Location) (base part : OsPath) :
    resolve cwd (join base part) = resolve (resolve cwd base) part := by
  cases relative : hasRoot part with
  | true =>
    rw [join, relative, if_pos rfl]
    simp only [resolve_eq _ part, relative, if_true]
  | false =>
    by_cases empty : base = []
    · rw [empty, join_nil relative]
      rfl
    · rw [resolve, components_join relative empty, List.foldl_append, ← resolve, resolve_eq _ part,
        relative, if_neg Bool.false_ne_true]

/-! ## Names and descents -/

theorem endsInName_append (base part : OsPath) : endsInName (base ++ slash :: part) = endsInName part := by
  rw [endsInName, pieces_append, List.getLast?_append_of_ne_nil _ (pieces_ne_nil part)]
  rfl

/-- A joined path ends as its last part does. -/
theorem endsInName_join (relative : hasRoot part = false) (base : OsPath) :
    endsInName (join base part) = endsInName part := by
  rw [join, relative, if_neg Bool.false_ne_true]
  split
  · rename_i ended
    rcases ended with rfl | ended
    · rfl
    · obtain ⟨front, rfl⟩ := List.getLast?_eq_some_iff.mp ended
      rw [List.append_assoc]
      exact endsInName_append front part
  · exact endsInName_append base part

theorem components_name (name : FileName) : components name.val = [.normal name] := by
  obtain ⟨nonempty, notDot, -, free⟩ := name.property
  have split := pieces_plain free
  have relative : hasRoot name.val = false := by
    rw [← Bool.not_eq_true, hasRoot_iff, split]
    rintro ⟨rest, more, same⟩
    exact more (List.cons.inj same).2.symm
  rw [components, leading, relative, if_neg Bool.false_ne_true, split, if_neg (by simpa using notDot)]
  simp [inner_normal]

/-- A path that only goes down: names and `.`. -/
def descends (path : OsPath) : Bool := (components path).all fun
  | .normal _ | .curDir => true
  | .rootDir | .parentDir => false

def Component.name : Component → Option FileName
  | .normal name => some name
  | _ => none

def names (path : OsPath) : List FileName := (components path).filterMap Component.name

theorem walk_descends {list : List Component}
    (down : ∀ component ∈ list, component = .curDir ∨ ∃ name, component = .normal name)
    (here : Location) : list.foldl walk here = here ++ list.filterMap Component.name := by
  induction list generalizing here with
  | nil => simp
  | cons component rest ih =>
    have following := fun here => ih (fun c member => down c (List.mem_cons_of_mem _ member)) here
    rw [List.foldl_cons, following]
    rcases down component List.mem_cons_self with rfl | ⟨name, rfl⟩
    · rfl
    · simp [walk, Component.name]

theorem descends_iff (path : OsPath) : descends path = true ↔
    ∀ component ∈ components path, component = .curDir ∨ ∃ name, component = .normal name := by
  rw [descends, List.all_eq_true]
  refine forall₂_congr fun component _ => ?_
  cases component <;> simp

theorem resolve_descends (down : descends path = true) (here : Location) :
    resolve here path = here ++ names path :=
  walk_descends ((descends_iff path).mp down) here

theorem descends_relative (down : descends path = true) : hasRoot path = false := by
  rw [← Bool.not_eq_true]
  intro rooted
  have first : Component.rootDir ∈ components path := by simp [components, leading, rooted]
  rcases (descends_iff path).mp down _ first with other | ⟨name, other⟩ <;> contradiction

theorem map_normal_names {list : List Component} (all : ∀ component ∈ list, ∃ name, component = .normal name) :
    (list.filterMap Component.name).map .normal = list := by
  induction list with
  | nil => rfl
  | cons component rest ih =>
    obtain ⟨name, rfl⟩ := all component List.mem_cons_self
    have following := ih fun c member => all c (List.mem_cons_of_mem _ member)
    simpa [Component.name] using following

theorem inner_ne_curDir (piece : List UInt8) : inner piece ≠ some .curDir := by
  unfold inner
  split
  · simp
  · split <;> simp

theorem leading_names (path : OsPath) : (leading path).filterMap Component.name = [] := by
  unfold leading
  split
  · rfl
  · split <;> rfl

theorem descends_pieces (down : descends path = true) :
    (pieces path).filterMap inner = (names path).map .normal := by
  rw [names, components, List.filterMap_append, leading_names, List.nil_append, map_normal_names]
  intro component member
  rcases (descends_iff path).mp down component (List.mem_append_right _ member) with rfl | normal
  · obtain ⟨piece, -, found⟩ := List.mem_filterMap.mp member
    exact absurd found (inner_ne_curDir piece)
  · exact normal

theorem inner_parentDir (piece : List UInt8) : inner piece = some .parentDir ↔ piece = [dot, dot] := by
  unfold inner
  split
  · rename_i plain
    simpa using plain.2.2.1
  · split <;> simp_all

theorem inner_ne_rootDir (piece : List UInt8) : inner piece ≠ some .rootDir := by
  unfold inner
  split
  · simp
  · split <;> simp

/-- A path goes down exactly when it is relative and no piece of it is `..`. -/
theorem descends_iff_pieces (path : OsPath) :
    descends path = true ↔ hasRoot path = false ∧ [dot, dot] ∉ pieces path := by
  constructor
  · intro down
    refine ⟨descends_relative down, fun up => ?_⟩
    have found := List.mem_filterMap.mpr ⟨_, up, (inner_parentDir _).mpr rfl⟩
    rcases (descends_iff path).mp down _ (List.mem_append_right _ found) with other | ⟨name, other⟩ <;>
      contradiction
  · rintro ⟨relative, free⟩
    rw [descends_iff]
    intro component member
    rcases List.mem_append.mp member with first | later
    · rw [leading, relative, if_neg Bool.false_ne_true] at first
      split at first
      · exact .inl (List.mem_singleton.mp first)
      · contradiction
    · obtain ⟨piece, listed, found⟩ := List.mem_filterMap.mp later
      cases component with
      | rootDir => exact absurd found (inner_ne_rootDir piece)
      | curDir => exact .inl rfl
      | parentDir => exact absurd ((inner_parentDir piece).mp found ▸ listed) free
      | normal name => exact .inr ⟨name, rfl⟩

theorem inner_name (free : slash ∉ piece) (other : piece ≠ [dot, dot]) :
    ((inner piece).bind Component.name).map Subtype.val = Option.guard (fun piece => !skipped piece) piece := by
  cases empty : skipped piece with
  | true => simp [inner_skipped empty, Option.guard, empty]
  | false =>
    simp only [skipped, Bool.or_eq_false_iff, beq_eq_false_iff_ne] at empty
    have plain : Plain piece := ⟨empty.1, empty.2, other, free⟩
    simp [inner, plain, Component.name, skipped, empty]

/-- The names on a descending path are its pieces but the empty ones and `.`. -/
theorem descends_names (down : descends path = true) :
    (names path).map Subtype.val = (pieces path).filter fun piece => !skipped piece := by
  have free := ((descends_iff_pieces path).mp down).2
  rw [names, components, List.filterMap_append, leading_names, List.nil_append, List.filterMap_filterMap,
    List.map_filterMap, ← List.filterMap_eq_filter]
  apply List.filterMap_congr
  intro piece member
  exact inner_name (pieces_free path piece member) fun up => free (up ▸ member)

theorem resolve_name (here : Location) (name : FileName) : resolve here name.val = here ++ [name] := by
  rw [resolve, components_name]
  rfl

/-! ## Parents -/

/-- Trimmed pieces are empty or end in a component; what stands before it trims to
the same components. -/
theorem rdropWhile_cases {list : List (List UInt8)} (free : ∀ piece ∈ list, slash ∉ piece) :
    (list.rdropWhile skipped = [] ∧ list.filterMap inner = []) ∨
    ∃ component, list.rdropWhile skipped ≠ [] ∧
      (∀ piece ∈ (list.rdropWhile skipped).dropLast.rdropWhile skipped, slash ∉ piece) ∧
      list.filterMap inner =
        ((list.rdropWhile skipped).dropLast.rdropWhile skipped).filterMap inner ++ [component] := by
  rw [filterMap_rdropWhile, ← filterMap_rdropWhile list]
  have trim := @List.rdropWhile_prefix _ skipped
  have inside := (trim list).subset
  have stops := List.rdropWhile_last_not skipped list
  rcases List.eq_nil_or_concat (list.rdropWhile skipped) with empty | ⟨front, last, trimmed⟩
  · exact .inl ⟨empty, by rw [empty]; rfl⟩
  · simp only [List.concat_eq_append] at trimmed
    rw [trimmed] at inside stops ⊢
    have kept : skipped last = false := by simpa using stops (by simp)
    obtain ⟨component, found⟩ := inner_isSome (free last (inside (by simp))) kept
    refine .inr ⟨component, by simp, ?_, by simp [found]⟩
    intro piece member
    have before := (trim (front ++ [last]).dropLast).subset member
    exact free piece (inside (List.dropLast_subset _ before))

theorem components_rooted (rooted : hasRoot path = true) (split : pieces path = [] :: rest) :
    components path = .rootDir :: rest.filterMap inner := by
  rw [components, leading, if_pos rooted, split, List.filterMap_cons_none inner_nil]
  rfl

/-- The components of a relative path, by whether its first piece is `.`. -/
theorem components_relative (relative : hasRoot path = false) (split : pieces path = first :: rest) :
    components path =
      (if first = [dot] then [.curDir] else []) ++ (inner first).toList ++ rest.filterMap inner := by
  rw [components, leading, relative, if_neg Bool.false_ne_true, split, List.append_assoc]
  simp only [List.head?_cons, Option.some.injEq]
  cases found : inner first <;> simp [found]

example : (components [46, 47, 97, 47, 46, 47, 46, 46]).length = 3 := by decide

theorem components_joined_rooted {list : List (List UInt8)} (free : ∀ piece ∈ list, slash ∉ piece) :
    components (slash :: [slash].intercalate list) = .rootDir :: list.filterMap inner := by
  rw [components_rooted rfl (pieces_slash _)]
  cases list with
  | nil => rfl
  | cons first rest => rw [pieces_intercalate free (List.cons_ne_nil _ _)]

theorem components_joined_relative {first : List UInt8} {rest : List (List UInt8)}
    (free : ∀ piece ∈ first :: rest, slash ∉ piece) (nonempty : first ≠ []) :
    components ([slash].intercalate (first :: rest)) =
      (if first = [dot] then [.curDir] else []) ++ (inner first).toList ++ rest.filterMap inner := by
  have split := pieces_intercalate free (List.cons_ne_nil _ _)
  refine components_relative ?_ split
  rw [← Bool.not_eq_true, hasRoot_iff, split]
  rintro ⟨others, -, same⟩
  exact nonempty (List.cons.inj same).1

/-- The parent has the components of the path but the last; the root and the empty
path have none. -/
theorem parent_spec (path : OsPath) : match parent path with
    | none => components path = [] ∨ components path = [.rootDir]
    | some up => components up = (components path).dropLast := by
  have free := pieces_free path
  unfold parent
  cases split : pieces path with
  | nil => exact absurd split (pieces_ne_nil path)
  | cons first rest =>
    rw [split] at free
    have freeRest := fun piece member => free piece (List.mem_cons_of_mem first member)
    cases rooted : hasRoot path with
    | true =>
      obtain ⟨rest, -, same⟩ := (hasRoot_iff path).mp rooted
      obtain ⟨rfl, rfl⟩ := List.cons.inj (split.symm.trans same)
      rw [components_rooted rooted split]
      rcases rdropWhile_cases freeRest with ⟨empty, nothing⟩ | ⟨last, more, freeUp, found⟩
      · simp [empty, nothing]
      · simp only [more, if_false, found, components_joined_rooted freeUp]
        rw [← List.cons_append, List.dropLast_concat]
    | false =>
      rw [components_relative rooted split]
      rcases rdropWhile_cases freeRest with ⟨empty, nothing⟩ | ⟨last, more, freeUp, found⟩
      · simp only [empty, if_true, nothing]
        by_cases blank : first = []
        · subst blank
          exact .inl rfl
        · simp only [blank, if_false]
          by_cases here : first = [dot]
          · subst here
            rfl
          · have kept : skipped first = false := by simp [skipped, blank, here]
            obtain ⟨component, found⟩ := inner_isSome (free first List.mem_cons_self) kept
            simp [here, found]
            rfl
      · have nonempty : first ≠ [] := by
          rintro rfl
          have rooted' : hasRoot path = true := (hasRoot_iff path).mpr
            ⟨rest, by rintro rfl; exact more rfl, split⟩
          rw [rooted] at rooted'
          contradiction
        have freeAll : ∀ piece ∈ first ::
            ((rest.rdropWhile skipped).dropLast.rdropWhile skipped), slash ∉ piece := by
          intro piece member
          rcases List.mem_cons.mp member with rfl | later
          · exact free piece List.mem_cons_self
          · exact freeUp piece later
        simp only [more, if_false, found, components_joined_relative freeAll nonempty]
        rw [← List.append_assoc, List.dropLast_concat]

example : parent [47, 97, 47, 47, 98, 47] = some [47, 97] := by decide
example : parent [97] = some [] := by decide

theorem parent_of_name {front : List Component} (ends : components path = front ++ [.normal name]) :
    ∃ up, parent path = some up ∧ ∀ cwd, resolve cwd path = resolve cwd up ++ [name] := by
  have spec := parent_spec path
  cases found : parent path with
  | none =>
    simp only [found, ends] at spec
    rcases spec with empty | root
    · simp at empty
    · simpa using congrArg List.getLast? root
  | some up =>
    simp only [found, ends, List.dropLast_concat] at spec
    refine ⟨up, rfl, fun cwd => ?_⟩
    rw [resolve, resolve, ends, spec, List.foldl_append]
    rfl

/-! ## Single names -/

theorem inner_eq_normal (piece : List UInt8) (file : FileName) :
    inner piece = some (.normal file) ↔ piece = file.val := by
  constructor
  · intro found
    unfold inner at found
    split at found
    · cases found
      rfl
    · split at found <;> cases found
  · rintro rfl
    exact inner_normal file

theorem inner_eq_none (free : slash ∉ piece) : inner piece = none ↔ skipped piece = true := by
  constructor
  · intro nothing
    by_contra kept
    obtain ⟨component, found⟩ := inner_isSome free (Bool.not_eq_true _ ▸ kept)
    rw [nothing] at found
    contradiction
  · exact inner_skipped

/-- A path is one name exactly when its first piece is the name and nothing counts behind it. -/
theorem components_single_iff (path : OsPath) (file : FileName) : components path = [.normal file] ↔
    ∃ rest, pieces path = file.val :: rest ∧ ∀ piece ∈ rest, skipped piece = true := by
  have free := pieces_free path
  cases split : pieces path with
  | nil => exact absurd split (pieces_ne_nil path)
  | cons first rest =>
    rw [split] at free
    have behind : rest.filterMap inner = [] ↔ ∀ piece ∈ rest, skipped piece = true := by
      rw [List.filterMap_eq_nil_iff]
      exact forall₂_congr fun piece member => inner_eq_none (free piece (List.mem_cons_of_mem _ member))
    have named : (∃ others, first :: rest = file.val :: others ∧ ∀ piece ∈ others, skipped piece = true) ↔
        first = file.val ∧ ∀ piece ∈ rest, skipped piece = true := by
      simp only [List.cons.injEq]
      exact ⟨fun ⟨_, ⟨same, equal⟩, all⟩ => ⟨same, equal ▸ all⟩, fun ⟨same, all⟩ => ⟨rest, ⟨same, rfl⟩, all⟩⟩
    rw [named]
    cases rooted : hasRoot path with
    | true =>
      obtain ⟨others, -, same⟩ := (hasRoot_iff path).mp rooted
      obtain ⟨rfl, rfl⟩ := List.cons.inj (split.symm.trans same)
      rw [components_rooted rooted split]
      refine iff_of_false (by simp) fun ⟨empty, _⟩ => file.property.1 empty.symm
    | false =>
      rw [components_relative rooted split]
      by_cases here : first = [dot]
      · subst here
        exact iff_of_false (by simp) fun ⟨same, _⟩ => file.property.2.1 same.symm
      · rw [if_neg here, List.nil_append]
        cases found : inner first with
        | none =>
          -- Without a root only the empty path begins with an empty piece.
          have blank : first = [] := by
            have empty := (inner_eq_none (free first List.mem_cons_self)).mp found
            simpa [skipped, here] using empty
          have alone : rest = [] := by
            by_contra more
            rw [(hasRoot_iff path).mpr ⟨rest, more, blank ▸ split⟩] at rooted
            contradiction
          rw [alone]
          exact iff_of_false (by simp) fun ⟨same, _⟩ => file.property.1 (same ▸ blank)
        | some component =>
          rw [Option.toList_some, List.singleton_append, List.cons.injEq, behind, ← inner_eq_normal, found,
            Option.some.injEq]

end SkyDaemon.UnixPath
