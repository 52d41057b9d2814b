import SkyDaemon.Runtime.Operations

/-! Image references by their grammar: a repository with an optional registry in front, then a
tag, a digest or both. `split_image_ref` reads every one of them back, and what it returns
names the same image with the default tag made explicit. -/
namespace SkyDaemon.Runtime

structure Registry where
  host : String
  port : Option String

def Registry.text (registry : Registry) : String :=
  match registry.port with
  | none => registry.host
  | some port => registry.host ++ ":" ++ port

/-- Segments separated by `/`, of which the first may be a registry. Only the last one is kept
from holding a `:` or an `@`. -/
structure Repository where
  registry : Option Registry
  path : List String
  name : String
  name_plain : ∀ c ∈ name.toList, c ≠ '/' ∧ c ≠ ':' ∧ c ≠ '@'

def Repository.leading (repository : Repository) : List String :=
  (repository.registry.map Registry.text).toList ++ repository.path

def Repository.text (repository : Repository) : String :=
  repository.leading.foldr (fun segment rest => segment ++ "/" ++ rest) repository.name

structure Tag where
  text : String
  nonempty : text ≠ ""
  plain : ∀ c ∈ text.toList, c ≠ '/' ∧ c ≠ ':' ∧ c ≠ '@'

def Tag.latest : Tag := ⟨"latest", by simp, by simp⟩

/-- `algorithm:hex`. -/
structure Digest where
  algorithm : String
  hex : String
  algorithm_plain : '/' ∉ algorithm.toList
  hex_digits : ∀ c ∈ hex.toList, c.isDigit ∨ c ∈ ['a', 'b', 'c', 'd', 'e', 'f', 'A', 'B', 'C', 'D', 'E', 'F']

def Digest.text (digest : Digest) : String := digest.algorithm ++ ":" ++ digest.hex

structure ImageReference where
  repository : Repository
  tag : Option Tag
  digest : Option Digest

def ImageReference.text (reference : ImageReference) : String :=
  reference.repository.text ++ (reference.tag.elim "" fun tag => ":" ++ tag.text) ++
    (reference.digest.elim "" fun digest => "@" ++ digest.text)

/-- The same image with the default tag written out; a digest needs none. -/
def ImageReference.explicit (reference : ImageReference) : ImageReference :=
  match reference.tag, reference.digest with
  | none, none => { reference with tag := some .latest }
  | _, _ => reference

/-- The parts joined again, as `fromImage` and `tag` of a pull name one image. -/
def rejoin (parts : String × String) : String :=
  if parts.2 = "" then parts.1 else parts.1 ++ ":" ++ parts.2

/-! ## The last segment -/

/-- A text whose last segment is given. -/
def EndsIn (text segment : List Char) : Prop :=
  '/' ∉ segment ∧ (text = segment ∨ ∃ front, text = front ++ '/' :: segment)

theorem EndsIn.rtakeWhile {text segment : List Char} (ends : EndsIn text segment) :
    text.rtakeWhile (· ≠ '/') = segment := by
  obtain ⟨free, whole⟩ := ends
  have keeps : ∀ c ∈ segment, decide (c ≠ '/') = true := by
    intro c member
    exact decide_eq_true fun same => free (same ▸ member)
  rcases whole with rfl | ⟨front, rfl⟩
  · exact List.rtakeWhile_eq_self_iff.mpr keeps
  · exact Text.rtakeWhile_append_cons front rfl keeps

theorem EndsIn.append {text segment more : List Char} (ends : EndsIn text segment) (free : '/' ∉ more) :
    EndsIn (text ++ more) (segment ++ more) := by
  obtain ⟨plain, whole⟩ := ends
  refine ⟨by simp [plain, free], ?_⟩
  rcases whole with rfl | ⟨front, rfl⟩
  · exact .inl rfl
  · exact .inr ⟨front, by simp⟩

theorem Repository.endsIn (repository : Repository) :
    EndsIn repository.text.toList repository.name.toList := by
  refine ⟨fun member => (repository.name_plain _ member).1 rfl, ?_⟩
  unfold text
  -- every leading segment ends in a separator of its own
  induction repository.leading with
  | nil => exact .inl rfl
  | cons segment rest ih =>
    right
    rcases ih with same | ⟨front, same⟩
    · exact ⟨segment.toList, by simp [String.toList_append, same]⟩
    · exact ⟨segment.toList ++ '/' :: front, by simp [String.toList_append, same]⟩

theorem Repository.name_free {c : Char} (repository : Repository) (special : c = ':' ∨ c = '@') :
    c ∉ repository.name.toList := by
  intro member
  have plain := repository.name_plain c member
  rcases special with rfl | rfl
  · exact plain.2.1 rfl
  · exact plain.2.2 rfl

theorem Digest.text_free (digest : Digest) : '/' ∉ digest.text.toList := by
  simp only [text, String.toList_append, List.mem_append, not_or]
  refine ⟨⟨digest.algorithm_plain, by decide⟩, ?_⟩
  intro member
  have digit := digest.hex_digits '/' member
  revert digit
  decide

/-! ## The four forms -/

section Forms
variable {image : String} {segment : List Char} (ends : EndsIn image.toList segment)
include ends

theorem splitImageRef_digest (digest : '@' ∈ segment) : splitImageRef image = (image, "") := by
  simp only [splitImageRef, ends.rtakeWhile]
  rw [if_pos digest]

theorem splitImageRef_untagged (noDigest : '@' ∉ segment) (noTag : ':' ∉ segment) :
    splitImageRef image = (image, "latest") := by
  simp only [splitImageRef, ends.rtakeWhile]
  rw [if_neg noDigest, if_neg fun tagged => noTag tagged.1]

theorem splitImageRef_tagged (noDigest : '@' ∉ segment) (tag : Tag) :
    splitImageRef (image ++ ":" ++ tag.text) = (image, tag.text) := by
  have plain (c : Char) (special : c = '/' ∨ c = ':' ∨ c = '@') : c ∉ tag.text.toList := by
    intro member
    have := tag.plain c member
    rcases special with rfl | rfl | rfl <;> simp at this
  have whole : (image ++ ":" ++ tag.text).toList = image.toList ++ ':' :: tag.text.toList := by
    simp [String.toList_append]
  have longer : EndsIn (image ++ ":" ++ tag.text).toList (segment ++ ':' :: tag.text.toList) := by
    rw [whole]
    exact ends.append (by simp [plain '/' (.inl rfl)])
  have last : (segment ++ ':' :: tag.text.toList).rtakeWhile (· ≠ ':') = tag.text.toList := by
    apply Text.rtakeWhile_append_cons segment rfl
    intro c member
    exact decide_eq_true fun same => plain ':' (.inr (.inl rfl)) (same ▸ member)
  have stated : tag.text.toList ≠ [] := by
    intro empty
    exact tag.nonempty (String.toList_inj.mp empty)
  have front : (image.toList ++ ':' :: tag.text.toList).rdrop (tag.text.toList.length + 1) = image.toList := by
    rw [← List.length_cons, List.rdrop_append_length]
  simp only [splitImageRef, longer.rtakeWhile, last]
  rw [if_neg (by simp [noDigest, plain '@' (.inr (.inr rfl))]), if_pos ⟨by simp, stated⟩, whole, front,
    String.ofList_toList, String.ofList_toList]

end Forms

theorem splitImageRef_text (reference : ImageReference) : splitImageRef reference.text =
    match reference.tag, reference.digest with
    | none, none => (reference.repository.text, "latest")
    | some tag, none => (reference.repository.text, tag.text)
    | _, some _ => (reference.text, "") := by
  obtain ⟨repository, tag, digest⟩ := reference
  have noColon := repository.name_free (.inl rfl)
  have noDigest := repository.name_free (.inr rfl)
  cases digest with
  | none =>
    cases tag with
    | none =>
      have same : ImageReference.text ⟨repository, none, none⟩ = repository.text := by
        simp [ImageReference.text]
      rw [same]
      exact splitImageRef_untagged repository.endsIn noDigest noColon
    | some tag =>
      have same : ImageReference.text ⟨repository, some tag, none⟩ =
          repository.text ++ ":" ++ tag.text := by
        simp [ImageReference.text, String.append_assoc]
      rw [same]
      exact splitImageRef_tagged repository.endsIn noDigest tag
  | some digest =>
    have marked : '/' ∉ ("@" ++ digest.text).toList := by
      simp [String.toList_append, digest.text_free]
    cases tag with
    | none =>
      have whole : ImageReference.text ⟨repository, none, some digest⟩ =
          repository.text ++ ("@" ++ digest.text) := by
        simp [ImageReference.text]
      have ends := repository.endsIn.append marked
      rw [← String.toList_append, ← whole] at ends
      exact splitImageRef_digest ends (by simp [String.toList_append])
    | some tag =>
      have tagFree : '/' ∉ (":" ++ tag.text).toList := by
        intro member
        have inside : '/' ∈ tag.text.toList := by simpa [String.toList_append] using member
        exact (tag.plain '/' inside).1 rfl
      have whole : ImageReference.text ⟨repository, some tag, some digest⟩ =
          repository.text ++ (":" ++ tag.text) ++ ("@" ++ digest.text) := rfl
      have ends := (repository.endsIn.append tagFree).append marked
      rw [← String.toList_append, ← String.toList_append, ← whole] at ends
      exact splitImageRef_digest ends (by simp [String.toList_append])

example : splitImageRef "registry.example.com:5000/team/img:v2" = ("registry.example.com:5000/team/img", "v2") := by
  decide +kernel

/-- `split_image_ref` follows the grammar: a reference without a tag gets the default one, a tag
is split off, a digest keeps the reference whole, and the parts joined again are the text of
the same reference with the default tag made explicit. -/
theorem splitImageRef_grammar (repository : Repository) (tag : Tag) (digest : Digest) :
    splitImageRef repository.text = (repository.text, "latest") ∧
    splitImageRef (repository.text ++ ":" ++ tag.text) = (repository.text, tag.text) ∧
    splitImageRef (repository.text ++ "@" ++ digest.text) =
      (repository.text ++ "@" ++ digest.text, "") ∧
    splitImageRef (repository.text ++ ":" ++ tag.text ++ "@" ++ digest.text) =
      (repository.text ++ ":" ++ tag.text ++ "@" ++ digest.text, "") ∧
    ∀ reference : ImageReference,
      rejoin (splitImageRef reference.text) = reference.explicit.text := by
  have forms (tag : Option Tag) (digest : Option Digest) := splitImageRef_text ⟨repository, tag, digest⟩
  refine ⟨?_, ?_, ?_, ?_, ?_⟩
  · simpa [ImageReference.text] using forms none none
  · simpa [ImageReference.text, String.append_assoc] using forms (some tag) none
  · simpa [ImageReference.text, String.append_assoc] using forms none (some digest)
  · simpa [ImageReference.text, String.append_assoc] using forms (some tag) (some digest)
  · rintro ⟨repository, tag, digest⟩
    rw [splitImageRef_text]
    cases digest with
    | none =>
      cases tag with
      | none => simp [rejoin, ImageReference.explicit, ImageReference.text, Tag.latest, String.append_assoc]
      | some tag =>
        simp [rejoin, ImageReference.explicit, ImageReference.text, tag.nonempty, String.append_assoc]
    | some digest => cases tag <;> simp [rejoin, ImageReference.explicit]

/-- A repository on a registry with a port, which a `:` follows without being a tag. -/
def gameRepository : Repository := ⟨some ⟨"localhost", some "5000"⟩, ["games"], "minecraft", by simp⟩

def gameTag : Tag := ⟨"1.21", by simp, by simp⟩

def gameDigest : Digest where
  algorithm := "sha256"
  hex := "e3b0c44298fc1c149afbf4c8996fb92427ae41e4649b934ca495991b7852b855"
  algorithm_plain := by simp
  hex_digits := by simp

theorem game_reference_split :
    gameRepository.text = "localhost:5000/games/minecraft" ∧
    splitImageRef "localhost:5000/games/minecraft" = ("localhost:5000/games/minecraft", "latest") ∧
    splitImageRef ("localhost:5000/games/minecraft" ++ ":" ++ "1.21") = ("localhost:5000/games/minecraft", "1.21") ∧
    splitImageRef ("localhost:5000/games/minecraft" ++ "@" ++ gameDigest.text) =
      ("localhost:5000/games/minecraft" ++ "@" ++ gameDigest.text, "") := by
  have text : gameRepository.text = "localhost:5000/games/minecraft" := by decide +kernel
  obtain ⟨untagged, tagged, pinned, -, -⟩ := splitImageRef_grammar gameRepository gameTag gameDigest
  rw [text] at untagged tagged pinned
  exact ⟨text, untagged, tagged, pinned⟩

end SkyDaemon.Runtime
