import Mathlib.Data.List.Forall2
import SkyDaemon.Foundation.Json
import SkyDaemon.Runtime.Operations
import SkyDaemon.Runtime.SelfHealing

/-! Which containers are the daemon's own. `list_managed` and the port self-healing each decode the
listing and decide for themselves; both go by the label, and without one by a name that ends in a
server id. -/
namespace SkyDaemon.Runtime
open Program Json
open Agent (ManagedContainer)

/-! ## Server ids -/

/-- A hexadecimal digit, in either case. -/
def hexChar (c : Char) : Bool := ('0' ≤ c && c ≤ '9') || ('a' ≤ c && c ≤ 'f') || ('A' ≤ c && c ≤ 'F')

/-- Five groups of hexadecimal digits with hyphens between them. -/
def IsUuid (s : String) : Prop :=
  ∃ groups : List (List Char), groups.map List.length = [8, 4, 4, 4, 12] ∧
    (∀ group ∈ groups, ∀ c ∈ group, hexChar c = true) ∧ s.toList = ['-'].intercalate groups

/-- Where a hyphen stands, for groups of these lengths. -/
def hyphens : List Nat → List Bool
  | [] => []
  | [length] => List.replicate length false
  | length :: lengths => List.replicate length false ++ true :: hyphens lengths

section Shape
variable {fits : α → β → Prop}

theorem forall₂_replicate {list : List α} : List.Forall₂ fits list (List.replicate n x) ↔
    list.length = n ∧ ∀ a ∈ list, fits a x := by
  induction n generalizing list with
  | zero =>
    rw [List.replicate_zero, List.forall₂_nil_right_iff, List.length_eq_zero_iff]
    exact ⟨fun empty => ⟨empty, by simp [empty]⟩, And.left⟩
  | succ n ih =>
    rw [List.replicate_succ, List.forall₂_cons_right_iff]
    constructor
    · rintro ⟨a, rest, first, others, rfl⟩
      obtain ⟨rfl, all⟩ := ih.mp others
      exact ⟨rfl, List.forall_mem_cons.mpr ⟨first, all⟩⟩
    · rintro ⟨length, all⟩
      cases list with
      | nil => cases length
      | cons a rest =>
        obtain ⟨first, others⟩ := List.forall_mem_cons.mp all
        exact ⟨a, rest, first, ih.mpr ⟨Nat.succ.inj length, others⟩, rfl⟩

theorem forall₂_append_right {list : List α} {first second : List β} : List.Forall₂ fits list (first ++ second) ↔
    ∃ front back, list = front ++ back ∧ List.Forall₂ fits front first ∧ List.Forall₂ fits back second := by
  constructor
  · intro all
    exact ⟨_, _, (List.take_append_drop first.length list).symm, List.forall₂_take_append _ _ _ all,
      List.forall₂_drop_append _ _ _ all⟩
  · rintro ⟨front, back, rfl, before, behind⟩
    exact List.rel_append before behind

end Shape

def Fits (c : Char) (hyphen : Bool) : Prop := if hyphen then c = '-' else hexChar c = true

theorem hyphens_fit {text : List Char} (lengths : List Nat) : List.Forall₂ Fits text (hyphens lengths) ↔
    ∃ groups : List (List Char), groups.map List.length = lengths ∧
      (∀ group ∈ groups, ∀ c ∈ group, hexChar c = true) ∧ text = ['-'].intercalate groups := by
  induction lengths using hyphens.induct generalizing text with
  | case1 =>
    rw [hyphens, List.forall₂_nil_right_iff]
    constructor
    · rintro rfl
      exact ⟨[], rfl, nofun, rfl⟩
    · rintro ⟨groups, lengths, -, rfl⟩
      rw [List.map_eq_nil_iff.mp lengths]
      rfl
  | case2 length =>
    rw [hyphens, forall₂_replicate]
    constructor
    · rintro ⟨rfl, all⟩
      exact ⟨[text], rfl, List.forall_mem_singleton.mpr all, by simp⟩
    · rintro ⟨groups, lengths, all, rfl⟩
      obtain ⟨group, rest, rfl, rfl, none⟩ := List.map_eq_cons_iff.mp lengths
      rw [List.map_eq_nil_iff.mp none] at all ⊢
      exact ⟨by simp, by simpa [Fits] using all⟩
  | case3 length lengths more ih =>
    rw [hyphens.eq_3 _ _ more, forall₂_append_right]
    constructor
    · rintro ⟨front, back, rfl, before, behind⟩
      obtain ⟨rfl, all⟩ := forall₂_replicate.mp before
      obtain ⟨hyphen, rest, rfl, others, rfl⟩ := List.forall₂_cons_right_iff.mp behind
      obtain ⟨groups, lengths', all', rfl⟩ := ih.mp others
      refine ⟨front :: groups, by rw [List.map_cons, lengths'], List.forall_mem_cons.mpr ⟨all, all'⟩, ?_⟩
      cases groups with
      | nil => exact absurd lengths'.symm more
      | cons next groups => rw [List.intercalate_cons_cons, List.append_assoc, List.singleton_append]
    · rintro ⟨groups, lengths', all, rfl⟩
      obtain ⟨front, rest, rfl, rfl, others⟩ := List.map_eq_cons_iff.mp lengths'
      obtain ⟨own, all'⟩ := List.forall_mem_cons.mp all
      cases rest with
      | nil => exact absurd others.symm more
      | cons next rest =>
        refine ⟨front, '-' :: ['-'].intercalate (next :: rest), ?_, forall₂_replicate.mpr ⟨rfl, own⟩, ?_⟩
        · rw [List.intercalate_cons_cons, List.append_assoc, List.singleton_append]
        · exact .cons rfl (ih.mpr ⟨next :: rest, others, all', rfl⟩)

def FitsByte (byte : UInt8) (hyphen : Bool) : Prop := if hyphen then byte = 45 else isHexDigit byte = true

theorem looksLikeServerId_fits (s : String) :
    looksLikeServerId s = true ↔ List.Forall₂ FitsByte (Text.bytes s) (hyphens [8, 4, 4, 4, 12]) := by
  have places : ∀ i < 36, (hyphens [8, 4, 4, 4, 12])[i]? = some (decide (i = 8 ∨ i = 13 ∨ i = 18 ∨ i = 23)) := by decide
  have place (i : Nat) (bound : i < (hyphens [8, 4, 4, 4, 12]).length) :
      (hyphens [8, 4, 4, 4, 12]).get ⟨i, bound⟩ = decide (i = 8 ∨ i = 13 ∨ i = 18 ∨ i = 23) := by
    have found := places i bound
    rw [List.getElem?_eq_getElem bound] at found
    exact Option.some.inj found
  have fits (byte : UInt8) (i : Nat) : FitsByte byte (decide (i = 8 ∨ i = 13 ∨ i = 18 ∨ i = 23)) ↔
      (if i = 8 ∨ i = 13 ∨ i = 18 ∨ i = 23 then byte == 45 else isHexDigit byte) = true := by
    unfold FitsByte
    by_cases hyphen : i = 8 ∨ i = 13 ∨ i = 18 ∨ i = 23 <;> simp [hyphen]
  rw [looksLikeServerId, Bool.and_eq_true, beq_iff_eq, List.all_eq_true, List.forall₂_iff_get]
  refine and_congr_right fun length => ?_
  constructor
  · intro all i inside bound
    rw [place, fits]
    exact all (_, i) (List.mem_zipIdx_iff_getElem?.mpr (List.getElem?_eq_getElem inside))
  · rintro all ⟨byte, i⟩ member
    have found : (Text.bytes s)[i]? = some byte := List.mem_zipIdx_iff_getElem?.mp member
    obtain ⟨inside, rfl⟩ := List.getElem?_eq_some_iff.mp found
    have bound : i < (hyphens [8, 4, 4, 4, 12]).length := inside.trans_eq length
    have own := all i inside bound
    rw [place, fits] at own
    exact own

/-- On ASCII characters the tests of bytes and of characters are the same. -/
theorem fitsByte_ascii {c : Char} (ascii : c.toNat ≤ 127) (hyphen : Bool) :
    FitsByte (UInt8.ofNat c.toNat) hyphen ↔ Fits c hyphen := by
  have table : ∀ value < 128, ((UInt8.ofNat value = 45) ↔ Char.ofNat value = '-') ∧
      isHexDigit (UInt8.ofNat value) = hexChar (Char.ofNat value) := by decide +kernel
  have own := table c.toNat (by omega)
  rw [Char.ofNat_toNat] at own
  cases hyphen with
  | true => exact own.1
  | false =>
    unfold FitsByte Fits
    rw [own.2]
    rfl

theorem fitsByte_low (fits : FitsByte byte hyphen) : byte.toNat ≤ 127 := by
  unfold FitsByte at fits
  split at fits
  · rw [fits]
    decide
  · simp only [isHexDigit, Bool.or_eq_true, Bool.and_eq_true, decide_eq_true_eq, UInt8.le_iff_toNat_le,
      UInt8.reduceToNat] at fits
    omega

theorem fits_low {c : Char} (fits : Fits c hyphen) : c.toNat ≤ 127 := by
  unfold Fits at fits
  split at fits
  · rw [fits]
    decide
  · simp only [hexChar, Bool.or_eq_true, Bool.and_eq_true, decide_eq_true_eq, Char.le_def,
      UInt32.le_iff_toNat_le] at fits
    change c.val.toNat ≤ 127
    have nine : '9'.val.toNat = 57 := rfl
    have small : 'f'.val.toNat = 102 := rfl
    have large : 'F'.val.toNat = 70 := rfl
    omega

/-- The check of bytes by their positions accepts exactly the UUIDs. -/
theorem looksLikeServerId_iff (s : String) : looksLikeServerId s = true ↔ IsUuid s := by
  have chars (ascii : ∀ c ∈ s.toList, c.toNat ≤ 127) : List.Forall₂ FitsByte (Text.bytes s) (hyphens [8, 4, 4, 4, 12]) ↔
      List.Forall₂ Fits s.toList (hyphens [8, 4, 4, 4, 12]) := by
    rw [Text.bytes_ascii ascii, List.forall₂_map_left_iff]
    constructor
    · intro all
      refine ((List.forall₂_and_left _ _).mpr ⟨ascii, all⟩).imp ?_
      exact fun c hyphen own => (fitsByte_ascii own.1 hyphen).mp own.2
    · intro all
      refine ((List.forall₂_and_left _ _).mpr ⟨ascii, all⟩).imp ?_
      exact fun c hyphen own => (fitsByte_ascii own.1 hyphen).mpr own.2
  rw [looksLikeServerId_fits, IsUuid, ← hyphens_fit]
  constructor
  · intro all
    have low := ((List.forall₂_and_left _ _).mp (all.imp fun byte hyphen fits => ⟨fitsByte_low fits, fits⟩)).1
    exact (chars (Text.ascii_of_bytes low)).mp all
  · intro all
    have low := ((List.forall₂_and_left _ _).mp (all.imp fun c hyphen fits => ⟨fits_low fits, fits⟩)).1
    exact (chars low).mpr all

/-! ## The owner of a container -/

/-- Any number of slashes, `sky-` and the id. -/
def NamedFor (name serverId : String) : Prop :=
  (∃ slashes, name.toList = List.replicate slashes '/' ++ "sky-".toList ++ serverId.toList) ∧ IsUuid serverId

theorem serverIdFromName_eq_some_iff (name serverId : String) :
    serverIdFromName name = some serverId ↔ NamedFor name serverId := by
  rw [serverIdFromName, Option.filter_eq_some_iff, looksLikeServerId_iff]
  refine and_congr_left fun _ => ?_
  rw [Option.map_eq_some_iff]
  constructor
  · rintro ⟨rest, stripped, rfl⟩
    obtain ⟨front, split, same⟩ := List.dropPrefix?_eq_some_iff.mp stripped
    rw [beq_iff_eq.mp same] at split
    refine ⟨(name.toList.takeWhile (· == '/')).length, ?_⟩
    have slashes : name.toList.takeWhile (· == '/') =
        List.replicate (name.toList.takeWhile (· == '/')).length '/' := by
      refine List.eq_replicate_of_mem fun c member => ?_
      simpa using List.mem_takeWhile_imp member
    rw [← slashes, List.append_assoc, @String.toList_ofList rest, ← split, List.takeWhile_append_dropWhile]
  · rintro ⟨slashes, named⟩
    refine ⟨serverId.toList, List.dropPrefix?_eq_some_iff.mpr ⟨"sky-".toList, ?_, beq_self_eq_true _⟩,
      String.ofList_toList⟩
    have free : ∀ c ∈ "sky-".toList, (c == '/') = false := by simp
    rw [named]
    exact Text.dropWhile_padded (by simp) free (by simp) serverId.toList

/-- The label names the server. -/
def Labelled (labels : HashMap String String) (serverId : String) : Prop :=
  labels.lookup "sky-panel.server_id" = some serverId ∧ serverId ≠ ""

/-- There is no label, or an empty one. -/
def Unlabelled (labels : HashMap String String) : Prop :=
  labels.lookup "sky-panel.server_id" = none ∨ labels.lookup "sky-panel.server_id" = some ""

/-- The first of the names that have the form has it for this server. -/
def FirstNamed (names : List String) (serverId : String) : Prop :=
  ∃ before name after, names = before ++ name :: after ∧ NamedFor name serverId ∧
    ∀ earlier ∈ before, ∀ other, ¬NamedFor earlier other

theorem findSome?_serverIdFromName (names : List String) (serverId : String) :
    names.findSome? serverIdFromName = some serverId ↔ FirstNamed names serverId := by
  have none (name : String) : serverIdFromName name = none ↔ ∀ other, ¬NamedFor name other := by
    simp only [← serverIdFromName_eq_some_iff, Option.eq_none_iff_forall_ne_some, ne_eq]
  simp only [List.findSome?_eq_some_iff, serverIdFromName_eq_some_iff, none, FirstNamed]

theorem serverIdFrom_eq_some_iff (names : List String) (labels : HashMap String String) (serverId : String) :
    serverIdFrom names labels = some serverId ↔
      Labelled labels serverId ∨ Unlabelled labels ∧ FirstNamed names serverId := by
  rw [← findSome?_serverIdFromName, serverIdFrom, Labelled, Unlabelled]
  cases label : labels.lookup "sky-panel.server_id" with
  | none => simp
  | some value =>
    by_cases empty : value = ""
    · have blank : value.isEmpty = true := by simpa using empty
      dsimp only
      rw [if_pos blank, empty]
      simp only [Option.some.injEq, or_true, true_and]
      constructor
      · exact .inr
      · rintro (⟨same, other⟩ | named)
        · exact absurd same.symm other
        · exact named
    · have stated : ¬ value.isEmpty = true := by simpa using empty
      simp only [if_neg stated, Option.some.injEq, empty, or_false, false_and, reduceCtorEq]
      exact ⟨fun same => ⟨same, same ▸ empty⟩, And.left⟩

theorem serverIdFrom_foreign (unlabelled : Unlabelled labels)
    (foreign : ∀ name ∈ names, ∀ serverId, ¬NamedFor name serverId) : serverIdFrom names labels = none := by
  rw [Option.eq_none_iff_forall_ne_some]
  intro serverId found
  rcases (serverIdFrom_eq_some_iff names labels serverId).mp found with ⟨label, stated⟩ | ⟨-, first⟩
  · rcases unlabelled with missing | empty
    · rw [missing] at label
      cases label
    · rw [empty] at label
      exact stated (Option.some.inj label).symm
  · obtain ⟨before, name, after, rfl, named, -⟩ := first
    exact foreign name (by simp) serverId named

/-! ## The two decodings -/

/-- What the self-healing decodes of an entry. -/
def ListItem.decode : Decoder ListItem :=
  asStruct ["Id", "Names", "Labels", "State", "Ports"] fun fields => do
    let id ← required asString "Id" fields
    let names ← withDefault [] (asList asString) "Names" fields
    let labels ← withDefault ∅ (asMap asString) "Labels" fields
    let state ← withDefault "" asString "State" fields
    let ports ← withDefault [] (asList port) "Ports" fields
    pure ⟨id, names, labels, state, ports⟩
where
  port : Decoder (Option Nat) := asStruct ["PublicPort"] (optionalField (asUnsigned (2 ^ 16)) "PublicPort")

/-- What `list_managed` decodes of an entry. -/
def ManagedItem.decode : Decoder ManagedItem :=
  asStruct ["Id", "Names", "Labels"] fun fields => do
    let id ← required asString "Id" fields
    let names ← withDefault [] (asList asString) "Names" fields
    let labels ← withDefault ∅ (asMap asString) "Labels" fields
    pure ⟨id, names, labels⟩

/-- The fields that `list_managed` decodes too. -/
def ListItem.managed (item : ListItem) : ManagedItem := ⟨item.id, item.names, item.labels⟩

theorem ListItem.decode_managed {json : Json} (decoded : ListItem.decode json = some item) :
    ManagedItem.decode json = some item.managed := by
  cases json with
  | object fields =>
    obtain ⟨single, built⟩ := Option.ite_none_right_eq_some.mp decoded
    rw [ManagedItem.decode, asStruct_object (single.of_subset (by decide))]
    simp only [Option.bind_eq_bind, Option.bind_eq_some_iff] at built
    obtain ⟨id, identified, names, named, labels, labelled, state, -, ports, -, whole⟩ := built
    cases whole
    rw [identified, named, labelled]
    rfl
  | _ => contradiction

/-- A body that both operations can decode is one document. -/
def ReadsJson (docker : DockerRuntime) : Prop :=
  ∀ body items listed, docker.managed body = some items → docker.containers body = some listed →
    ∃ json, asList ManagedItem.decode json = some items ∧ asList ListItem.decode json = some listed

theorem ReadsJson.managed {docker : DockerRuntime} (reads : ReadsJson docker)
    (decoded : docker.managed body = some items)
    (shown : docker.containers body = some listed) : items = listed.map ListItem.managed := by
  obtain ⟨json, ours, theirs⟩ := reads body items listed decoded shown
  have agreed := asList_agrees (fun _ _ => ListItem.decode_managed) theirs
  rw [ours] at agreed
  exact Option.some.inj agreed

/-! ## The two decisions -/

theorem ManagedItem.container_eq (item : ManagedItem) :
    item.container = (serverIdFrom item.names item.labels).map fun serverId => ⟨serverId, item.id⟩ := by
  rw [ManagedItem.container, serverIdFrom]
  cases item.labels.lookup "sky-panel.server_id" with
  | none => rfl
  | some value =>
    dsimp only
    rw [Option.filter_some]
    cases value.isEmpty <;> rfl

section Listing
variable {docker : DockerRuntime}

/-- One listing is asked for, and its entries decide. -/
theorem listManaged_ran {made : DockerHistory} (ran : (listManaged docker).Ran made result) :
    ∃ answer, made = [⟨⟨.get, listPath, none⟩, answer⟩] ∧
      ∀ body items, response docker.toDecoders answer = .ok (200, body) → docker.managed body = some items →
        result = .ok (items.filterMap ManagedItem.container) := by
  rcases ran.of_bind with ⟨message, failed, rfl⟩ | ⟨bytes, first, rest, rfl, listed, following⟩
  · obtain ⟨answer, rfl, read⟩ := expect_ran failed
    refine ⟨answer, rfl, fun body items answered _ => ?_⟩
    cases (read body).mpr ⟨200, List.mem_cons_self, answered⟩
  · obtain ⟨answer, rfl, read⟩ := expect_ran listed
    cases decoded : docker.managed bytes with
    | none =>
      rw [decoded] at following
      cases following
      refine ⟨answer, rfl, fun body items answered shown => ?_⟩
      cases (read body).mpr ⟨200, List.mem_cons_self, answered⟩
      rw [decoded] at shown
      cases shown
    | some items =>
      rw [decoded] at following
      cases following
      refine ⟨answer, rfl, fun body shown answered found => ?_⟩
      cases (read body).mpr ⟨200, List.mem_cons_self, answered⟩
      rw [decoded] at found
      cases found
      rfl

/-- Where Docker reports the listing, a container of no server is spared, and one of a server is
removed when it holds a port and does not run. -/
structure SweepsOwn (api : Decoders) (listed : List ListItem) : Prop where
  spares : ∀ target bindings made result, (freeConflictingPorts api target).Ran made result →
    Reported api target bindings listed made → ∀ id, removal id ∈ asked made →
      ∃ item ∈ listed, item.id = id ∧ item.serverId.isSome
  removes : ∀ target bindings made result, (freeConflictingPorts api target).Ran made result →
    Reported api target bindings listed made → ∀ item ∈ listed, item.serverId.isSome → item.id ≠ target →
      item.publishes (hostPorts bindings) → item.running = false → removal item.id ∈ asked made

theorem sweepsOwn (api : Decoders) (listed : List ListItem) : SweepsOwn api listed where
  spares target bindings made result ran reported id removed := by
    obtain ⟨item, member, same, decided⟩ := (freeConflictingPorts_ran reported ran id).mp removed
    refine ⟨item, member, same, ?_⟩
    rw [ListItem.swept, Bool.and_eq_true, Option.any_eq_true] at decided
    obtain ⟨-, sid, identified, -⟩ := decided
    rw [identified]
    rfl
  removes target bindings made result ran reported item member ours other publishes stopped := by
    refine (freeConflictingPorts_ran reported ran item.id).mpr ⟨item, member, rfl, ?_⟩
    obtain ⟨sid, identified⟩ := Option.isSome_iff_exists.mp ours
    simp [ListItem.swept, other, publishes, identified, stopped]

/-- The containers tracked after a restart are those of a server as the self-healing sees it: by
the label, or without one by the first name of the form. -/
theorem ownership_agrees (reads : ReadsJson docker) (oracle : DockerHistory → Request → Except String (List UInt8))
    (answered : response docker.toDecoders (oracle [] ⟨.get, listPath, none⟩) = .ok (200, body))
    (decoded : docker.managed body = some items) :
    ((listManaged docker).transcript oracle []).2 = .ok (items.filterMap fun item =>
        (serverIdFrom item.names item.labels).map fun serverId => ⟨serverId, item.id⟩) ∧
    (∀ names labels serverId, serverIdFrom names labels = some serverId ↔
      Labelled labels serverId ∨ Unlabelled labels ∧ FirstNamed names serverId) ∧
    (∀ listed, docker.containers body = some listed →
      ((listManaged docker).transcript oracle []).2 = .ok (listed.filterMap fun item =>
        item.serverId.map fun serverId => ⟨serverId, item.id⟩) ∧ SweepsOwn docker.toDecoders listed) ∧
    ∀ names labels, Unlabelled labels → (∀ name ∈ names, ∀ serverId, ¬NamedFor name serverId) →
      serverIdFrom names labels = none := by
  have tracked : ((listManaged docker).transcript oracle []).2 = .ok (items.filterMap fun item =>
      (serverIdFrom item.names item.labels).map fun serverId => ⟨serverId, item.id⟩) := by
    obtain ⟨made, whole, ran⟩ := transcript_ran oracle (listManaged docker) []
    obtain ⟨answer, rfl, listed⟩ := listManaged_ran ran
    have first : [⟨⟨.get, listPath, none⟩, oracle [] ⟨.get, listPath, none⟩⟩] <+:
        ((listManaged docker).transcript oracle []).1 := transcript_extends oracle _ [_]
    rw [whole, List.nil_append] at first
    cases first.eq_of_length rfl
    rw [listed body items answered decoded]
    exact congrArg (fun own => Except.ok (items.filterMap own)) (funext ManagedItem.container_eq)
  refine ⟨tracked, serverIdFrom_eq_some_iff, fun listed shown => ⟨?_, sweepsOwn _ listed⟩,
    fun names labels => serverIdFrom_foreign⟩
  rw [tracked, reads.managed decoded shown, List.filterMap_map]
  rfl

end Listing

def mixedText : String :=
  "[\x7b\"Id\":\"c1\",\"Names\":[\"/sky-panel\"],\"Labels\":\x7b\"sky-panel.server_id\":\"s1\"\x7d\x7d," ++
    "\x7b\"Id\":\"c2\",\"Names\":[\"/game\",\"//sky-01234567-89ab-cdef-0123-456789ABCDEF\"]," ++
    "\"Labels\":\x7b\"sky-panel.server_id\":\"\"\x7d\x7d,\x7b\"Id\":\"c3\",\"Names\":[\"/sky-panel\"]\x7d]"

/-- A labelled container, one that lost its label, and one of somebody else. -/
def mixedListing : Json :=
  .array [.object [("Id", .string "c1"), ("Names", .array [.string "/sky-panel"]),
      ("Labels", .object [("sky-panel.server_id", .string "s1")])],
    .object [("Id", .string "c2"),
      ("Names", .array [.string "/game", .string "//sky-01234567-89ab-cdef-0123-456789ABCDEF"]),
      ("Labels", .object [("sky-panel.server_id", .string "")])],
    .object [("Id", .string "c3"), ("Names", .array [.string "/sky-panel"])]]

def mixedParse (body : List UInt8) : Option Json := if body = Text.bytes mixedText then some mixedListing else none

def mixedDocker : DockerRuntime where
  toDecoders := { conflictApi with containers := fun body => (mixedParse body).bind (asList ListItem.decode) }
  dns := []
  encode _ := .error ""
  pullLine _ := none
  created _ := none
  running _ := none
  managed body := (mixedParse body).bind (asList ManagedItem.decode)
  sample _ := none

theorem mixedDocker_reads : ReadsJson mixedDocker := by
  intro body items listed decoded shown
  obtain ⟨json, parsed, ours⟩ := Option.bind_eq_some_iff.mp decoded
  obtain ⟨json', parsed', theirs⟩ := Option.bind_eq_some_iff.mp shown
  rw [parsed] at parsed'
  cases parsed'
  exact ⟨json, ours, theirs⟩

theorem mixed_listing_tracked :
    ((listManaged mixedDocker).transcript (fun _ _ => answerText "200 OK" mixedText) []).2 =
      .ok [⟨"s1", "c1"⟩, ⟨"01234567-89ab-cdef-0123-456789ABCDEF", "c2"⟩] ∧
    ∃ listed, mixedDocker.containers (Text.bytes mixedText) = some listed ∧
      SweepsOwn mixedDocker.toDecoders listed := by
  have read : response mixedDocker.toDecoders (answerText "200 OK" mixedText) = .ok (200, Text.bytes mixedText) := by
    decide +kernel
  obtain ⟨items, decoded⟩ : ∃ items, mixedDocker.managed (Text.bytes mixedText) = some items :=
    Option.isSome_iff_exists.mp (by decide +kernel)
  obtain ⟨listed, shown⟩ : ∃ listed, mixedDocker.containers (Text.bytes mixedText) = some listed :=
    Option.isSome_iff_exists.mp (by decide +kernel)
  obtain ⟨tracked, -, swept, -⟩ :=
    ownership_agrees mixedDocker_reads (fun _ _ => answerText "200 OK" mixedText) read decoded
  refine ⟨?_, listed, shown, (swept listed shown).2⟩
  rw [tracked]
  have owners : ((mixedDocker.managed (Text.bytes mixedText)).map fun items => items.filterMap fun item =>
      (serverIdFrom item.names item.labels).map fun serverId => (⟨serverId, item.id⟩ : ManagedContainer)) =
      some [⟨"s1", "c1"⟩, ⟨"01234567-89ab-cdef-0123-456789ABCDEF", "c2"⟩] := by decide +kernel
  rw [decoded] at owners
  exact congrArg Except.ok (Option.some.inj owners)

end SkyDaemon.Runtime
