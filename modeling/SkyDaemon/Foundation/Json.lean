import Mathlib.Data.Finmap
import SkyDaemon.Foundation.HashMap

/-! JSON values and derived decoders: fields are found by name, unknown names are ignored, a
repeated name is an error, and a missing field is an error, a default or an absent option.
Next to each decoder stands what it is meant to read: the spellings of a value. -/
namespace SkyDaemon

inductive Json where
  | null
  | bool (value : Bool)
  | integer (value : Int)
  /-- A number with a fraction or an exponent, by its text. -/
  | decimal (text : String)
  | string (value : String)
  | array (items : List Json)
  | object (fields : List (String × Json))

namespace Json

abbrev Fields := List (String × Json)
abbrev Decoder (α : Type) := Json → Option α

/-! ## Decoders -/

def asString : Decoder String
  | .string value => some value
  | _ => none

/-- Integers of other ranges are refused. -/
def asInt64 : Decoder Int64
  | .integer value => if -2 ^ 63 ≤ value ∧ value < 2 ^ 63 then some (Int64.ofInt value) else none
  | _ => none

/-- An unsigned integer below the limit. -/
def asUnsigned (limit : Nat) : Decoder Nat
  | .integer value => if 0 ≤ value ∧ value < limit then some value.toNat else none
  | _ => none

def asList (item : Decoder α) : Decoder (List α)
  | .array items => items.mapM item
  | _ => none

/-- A later entry replaces an earlier one with its key. -/
def collect (entries : List (String × β)) : HashMap String β :=
  entries.foldl (fun map entry => map.insert entry.1 entry.2) ∅

def asMap (value : Decoder β) : Decoder (HashMap String β)
  | .object fields => (fields.mapM fun field => (value field.2).map (field.1, ·)).map collect
  | _ => none

def asOption (value : Decoder α) : Decoder (Option α)
  | .null => some none
  | json => (value json).map some

/-- The names that a struct knows occur once at most. -/
def Single (names : List String) (fields : Fields) : Prop :=
  ∀ name ∈ names, (fields.map Prod.fst).count name ≤ 1

instance (names : List String) (fields : Fields) : Decidable (Single names fields) :=
  inferInstanceAs (Decidable (∀ name ∈ names, _))

def asStruct (names : List String) (build : Fields → Option α) : Decoder α
  | .object fields => if Single names fields then build fields else none
  | _ => none

/-! Fields of a struct. -/

def required (decode : Decoder α) (name : String) (fields : Fields) : Option α := (fields.lookup name).bind decode

def withDefault (absent : α) (decode : Decoder α) (name : String) (fields : Fields) : Option α :=
  match fields.lookup name with
  | none => some absent
  | some json => decode json

/-- An option of which neither a missing field nor `null` gives a value. -/
def optionalField (decode : Decoder α) (name : String) (fields : Fields) : Option (Option α) :=
  withDefault none (asOption decode) name fields

/-- A decoder for which `null` is the default value. -/
def nullDefault (absent : α) (decode : Decoder α) : Decoder α :=
  fun json => (asOption decode json).map (·.getD absent)

/-- The fields of a struct in order, without those that there is nothing to write for. -/
def writeFields (table : List (String × Option Json)) : Fields :=
  table.filterMap fun field => field.2.map (field.1, ·)

/-! ## Spellings -/

/-- Which JSON values may stand for a value. -/
abbrev Spelling (α : Type) := α → Json → Prop

def Reads (decode : Decoder α) (spells : Spelling α) : Prop :=
  ∀ value json, spells value json → decode json = some value

def SpellsString : Spelling String := fun value json => json = .string value

def SpellsInt64 : Spelling Int64 := fun value json => json = .integer value.toInt

def SpellsList (item : Spelling α) : Spelling (List α) := fun values json =>
  ∃ items, json = .array items ∧ List.Forall₂ item values items

/-- The entries of a map may come in any order. -/
def SpellsMap (map : HashMap String String) (json : Json) : Prop :=
  ∃ entries : List (String × String), entries.Perm (map.entries.map fun entry => (entry.1, entry.2)) ∧
    json = .object (entries.map fun entry => (entry.1, .string entry.2))

/-- The field is there and spells the value. -/
def Given (spells : Spelling α) (value : α) (found : Option Json) : Prop :=
  ∃ json, found = some json ∧ spells value json

/-- The default value may also be left out. -/
def GivenOrAbsent (absent : α) (spells : Spelling α) (value : α) (found : Option Json) : Prop :=
  Given spells value found ∨ value = absent ∧ found = none

/-- The default value may also be left out or be `null`. -/
def GivenOrNull (absent : α) (spells : Spelling α) (value : α) (found : Option Json) : Prop :=
  Given spells value found ∨ value = absent ∧ (found = none ∨ found = some .null)

/-- An absent option is left out or `null`. -/
def GivenIfSome (spells : Spelling α) : Option α → Option Json → Prop
  | some value, found => Given spells value found
  | none, found => found = none ∨ found = some .null

/-! ## Spellings are read -/

theorem asString_reads : Reads asString SpellsString := by
  rintro value json rfl
  rfl

theorem asInt64_reads : Reads asInt64 SpellsInt64 := by
  rintro value json rfl
  have range : -2 ^ 63 ≤ value.toInt ∧ value.toInt < 2 ^ 63 := ⟨value.le_toInt, value.toInt_lt⟩
  rw [asInt64, if_pos range, Int64.ofInt_toInt]

theorem asList_reads {item : Decoder α} {spells : Spelling α} (reads : Reads item spells) :
    Reads (asList item) (SpellsList spells) := by
  rintro values json ⟨items, rfl, each⟩
  rw [asList]
  induction each with
  | nil => rfl
  | cons first rest ih => simp [reads _ _ first, ih]

/-- Collected entries of distinct keys are found under their keys. -/
theorem collect_lookup {entries : List (String × β)} (distinct : (entries.map Prod.fst).Nodup) :
    (collect entries).lookup key = some value ↔ (key, value) ∈ entries := by
  induction entries using List.reverseRecOn with
  | nil => simp [collect]
  | append_singleton entries entry ih =>
    obtain ⟨name, found⟩ := entry
    rw [List.map_append, List.nodup_append'] at distinct
    obtain ⟨before, -, apart⟩ := distinct
    have fresh : name ∉ entries.map Prod.fst := fun member => apart member (by simp)
    have inserted : collect (entries ++ [(name, found)]) = (collect entries).insert name found := by
      rw [collect, List.foldl_append]
      rfl
    rw [inserted, HashMap.lookup_insert_eq]
    by_cases same : key = name
    · subst same
      have absent : (key, value) ∉ entries := fun member => fresh (List.mem_map_of_mem member)
      simp [absent, eq_comm]
    · simp [same, ih before]

theorem collect_perm {map : HashMap String β} {entries : List (String × β)}
    (order : entries.Perm (map.entries.map fun entry => (entry.1, entry.2))) :
    (collect entries).toFinmap = map.toFinmap := by
  have keys : (entries.map Prod.fst).Perm map.keys := by
    have names := order.map Prod.fst
    rw [List.map_map] at names
    exact names
  apply Finmap.ext_lookup
  intro key
  rw [Finmap.lookup_toFinmap, Finmap.lookup_toFinmap]
  apply Option.ext
  intro value
  rw [collect_lookup (keys.nodup_iff.mpr map.keys_nodup), order.mem_iff, ← Option.mem_def, AList.mem_lookup_iff]
  constructor
  · intro member
    obtain ⟨⟨name, found⟩, inside, same⟩ := List.mem_map.mp member
    cases same
    exact inside
  · intro member
    exact List.mem_map.mpr ⟨_, member, rfl⟩

theorem asMap_reads {map : HashMap String String} {json : Json} (spelled : SpellsMap map json) :
    ∃ read, asMap asString json = some read ∧ read.toFinmap = map.toFinmap := by
  obtain ⟨entries, order, rfl⟩ := spelled
  have decoded : (entries.map fun entry => (entry.1, Json.string entry.2)).mapM
      (fun field => (asString field.2).map (field.1, ·)) = some entries := by
    clear order
    induction entries with
    | nil => rfl
    | cons entry rest ih =>
      rw [List.map_cons, List.mapM_cons, ih]
      rfl
  exact ⟨collect entries, by rw [asMap, decoded]; rfl, collect_perm order⟩

theorem asStruct_object {build : Fields → Option α} (single : Single names fields) :
    asStruct names build (.object fields) = build fields := if_pos single

section Fields
variable {decode : Decoder α} {spells : Spelling α} {fields : Fields} {name : String}

theorem Given.required (given : Given spells value (fields.lookup name)) (reads : Reads decode spells) :
    required decode name fields = some value := by
  obtain ⟨json, found, spelled⟩ := given
  rw [Json.required, found, Option.bind_some, reads value json spelled]

theorem GivenOrAbsent.withDefault (given : GivenOrAbsent absent spells value (fields.lookup name))
    (reads : Reads decode spells) : withDefault absent decode name fields = some value := by
  unfold Json.withDefault
  rcases given with ⟨json, found, spelled⟩ | ⟨rfl, missing⟩
  · rw [found]
    exact reads value json spelled
  · rw [missing]

/-- No spelling of the type is `null`. -/
theorem asOption_reads {json : Json} (reads : decode json = some value) (notNull : decode .null = none) :
    asOption decode json = some (some value) := by
  unfold asOption
  split
  · rw [notNull] at reads
    cases reads
  · rw [reads]
    rfl

theorem GivenOrNull.withDefault (given : GivenOrNull absent spells value (fields.lookup name))
    (reads : Reads decode spells) (notNull : decode .null = none) :
    withDefault absent (nullDefault absent decode) name fields = some value := by
  unfold Json.withDefault
  rcases given with ⟨json, found, spelled⟩ | ⟨rfl, missing | null⟩
  · rw [found]
    dsimp only
    rw [nullDefault, asOption_reads (reads value json spelled) notNull]
    rfl
  · rw [missing]
  · rw [null]
    rfl

theorem GivenIfSome.optionalField {value : Option α} (given : GivenIfSome spells value (fields.lookup name))
    (reads : Reads decode spells) (notNull : decode .null = none) :
    optionalField decode name fields = some value := by
  unfold Json.optionalField Json.withDefault
  cases value with
  | some value =>
    obtain ⟨json, found, spelled⟩ := given
    rw [found]
    exact asOption_reads (reads value json spelled) notNull
  | none =>
    rcases given with missing | null
    · rw [missing]
    · rw [null]
      rfl

end Fields

/-! ## Structs with some of the fields -/

theorem Single.of_subset (single : Single names fields) (inside : part ⊆ names) : Single part fields :=
  fun name member => single name (inside member)

/-- Where one decoder reads every item, so does another that makes something of the same. -/
theorem asList_agrees {item : Decoder α} {other : Decoder β} {f : α → β} {json : Json}
    (agrees : ∀ json value, item json = some value → other json = some (f value))
    (decoded : asList item json = some values) : asList other json = some (values.map f) := by
  cases json with
  | array items =>
    change items.mapM item = some values at decoded
    change items.mapM other = some (values.map f)
    induction items generalizing values with
    | nil =>
      cases decoded
      rfl
    | cons first rest ih =>
      rw [List.mapM_cons, Option.bind_eq_bind, Option.bind_eq_some_iff] at decoded
      obtain ⟨value, read, decoded⟩ := decoded
      obtain ⟨others, later, whole⟩ := Option.bind_eq_some_iff.mp decoded
      cases whole
      rw [List.mapM_cons, agrees first value read, ih later]
      rfl
  | _ => contradiction

/-! ## What is written is spelled -/

theorem spellsString (value : String) : SpellsString value (.string value) := rfl

theorem spellsList_map {encode : α → Json} {spells : Spelling α} (each : ∀ value, spells value (encode value))
    (values : List α) : SpellsList spells values (.array (values.map encode)) := by
  refine ⟨values.map encode, rfl, ?_⟩
  rw [List.forall₂_map_right_iff, List.forall₂_same]
  exact fun value _ => each value

theorem writeFields_names (table : List (String × Option Json)) :
    ((writeFields table).map Prod.fst).Sublist (table.map Prod.fst) := by
  induction table with
  | nil => exact .slnil
  | cons field rest ih =>
    obtain ⟨name, value⟩ := field
    cases value with
    | none => exact ih.cons name
    | some json => exact ih.cons_cons name

theorem writeFields_lookup {table : List (String × Option Json)} (distinct : (table.map Prod.fst).Nodup)
    (member : (name, value) ∈ table) : (writeFields table).lookup name = value := by
  induction table with
  | nil => contradiction
  | cons field rest ih =>
    obtain ⟨fresh, others⟩ := List.nodup_cons.mp distinct
    rcases List.mem_cons.mp member with rfl | later
    · cases value with
      | some json => exact List.lookup_cons_self
      | none =>
        have absent : name ∉ (writeFields rest).map Prod.fst := fun inside =>
          fresh ((writeFields_names rest).subset inside)
        apply List.lookup_eq_none_iff.mpr
        intro field inside
        apply bne_iff_ne.mpr
        rintro rfl
        exact absent (List.mem_map_of_mem inside)
    · obtain ⟨other, found⟩ := field
      have different : (name == other) = false := by
        apply beq_eq_false_iff_ne.mpr
        rintro rfl
        exact fresh (List.mem_map.mpr ⟨_, later, rfl⟩)
      cases found with
      | none => exact ih others later
      | some json =>
        change List.lookup name ((other, json) :: writeFields rest) = value
        rw [List.lookup_cons, different]
        exact ih others later

theorem writeFields_given {encode : α → Json} {spells : Spelling α} {table : List (String × Option Json)}
    {value : Option α} (distinct : (table.map Prod.fst).Nodup) (each : ∀ value, spells value (encode value))
    (member : (name, value.map encode) ∈ table) : GivenIfSome spells value ((writeFields table).lookup name) := by
  rw [writeFields_lookup distinct member]
  cases value with
  | none => exact .inl rfl
  | some value => exact ⟨encode value, rfl, each value⟩

theorem Single.of_sublist (distinct : names.Nodup) (part : (fields.map Prod.fst).Sublist names) :
    Single names fields := by
  intro name member
  exact (part.count_le name).trans (List.nodup_iff_count_le_one.mp distinct name)

end Json
end SkyDaemon
