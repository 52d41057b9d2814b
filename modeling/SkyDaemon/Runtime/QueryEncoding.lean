import SkyDaemon.Runtime.Operations

/-! `encode_query`: what stands for itself, what becomes a percent triple, and how the result is
read back. The paths of the image requests have no other separators than their own. -/
namespace SkyDaemon.Runtime
open HttpRequest (segmentByte valueByte percent slash percentDecode percentEncode encodeByte)

theorem byte_table {P : UInt8 → Prop} (table : ∀ value < 256, P (UInt8.ofNat value)) (byte : UInt8) : P byte := by
  have own := table byte.toNat byte.toNat_lt
  rwa [UInt8.ofNat_toNat] at own

theorem bytes_encodeQuery (s : String) : Text.bytes (encodeQuery s) = percentEncode keptInQuery (Text.bytes s) := by
  rw [Text.bytes_eq, encodeQuery, String.toList_ofList, List.flatMap_assoc]
  refine List.flatMap_congr fun byte _ => ?_
  exact byte_table (P := fun byte => (if keptInQuery byte then [Char.ofNat byte.toNat]
    else ['%', upperDigit (byte.toNat / 16), upperDigit (byte.toNat % 16)]).flatMap String.utf8EncodeChar =
      encodeByte keptInQuery byte) (by decide +kernel) byte

example : encodeQuery "weird&tag=x" = "weird%26tag%3Dx" := by decide +kernel

theorem keptInQuery_value (byte : UInt8) : keptInQuery byte = true → valueByte byte = true :=
  byte_table (P := fun byte => keptInQuery byte = true → valueByte byte = true) (by decide +kernel) byte

theorem keptInQuery_segment (byte : UInt8) : byte ≠ slash → keptInQuery byte = true → segmentByte byte = true :=
  byte_table (P := fun byte => byte ≠ slash → keptInQuery byte = true → segmentByte byte = true) (by decide +kernel)
    byte

theorem encodeQuery_escaped (s : String) :
    ((Text.bytes (encodeQuery s)).all fun byte => valueByte byte || byte == percent) = true := by
  rw [bytes_encodeQuery]
  refine HttpRequest.percentEncode_all (fun byte _ kept => ?_) (by decide) fun byte digit => ?_
  · rw [keptInQuery_value byte kept]
    rfl
  · rw [keptInQuery_value byte (by rw [keptInQuery, digit]; rfl)]
    rfl

theorem formDecode_encodeQuery (s : String) :
    HttpRequest.formDecode (Text.bytes (encodeQuery s)) = some (Text.bytes s) := by
  rw [bytes_encodeQuery]
  exact HttpRequest.formDecode_encode (by decide) (by decide) _

/-! ## Units of the output -/

/-- An upper-case hexadecimal digit. -/
def UpperHex (byte : UInt8) : Prop := (48 ≤ byte ∧ byte ≤ 57) ∨ (65 ≤ byte ∧ byte ≤ 70)

instance (byte : UInt8) : Decidable (UpperHex byte) := inferInstanceAs (Decidable (_ ∨ _))

/-- What one byte of the input becomes. -/
inductive QueryUnit : List UInt8 → Prop where
  | letterOrDigit (own : HttpRequest.letterOrDigit byte = true) : QueryUnit [byte]
  | mark (own : byte ∈ Text.bytes "-_.~/:") : QueryUnit [byte]
  | triple (high : UpperHex first) (low : UpperHex second) : QueryUnit [percent, first, second]

theorem hexDigit_upper (below : value < 16) : UpperHex (HttpRequest.hexDigit value) := by
  have table : ∀ value < 16, UpperHex (HttpRequest.hexDigit value) := by decide
  exact table value below

theorem encodeByte_unit (byte : UInt8) : QueryUnit (encodeByte keptInQuery byte) := by
  have bound := byte.toNat_lt
  rw [encodeByte]
  split
  · rename_i kept
    rw [keptInQuery, Bool.or_eq_true] at kept
    rcases kept with own | own
    · exact .letterOrDigit own
    · exact .mark (List.contains_iff_mem.mp own)
  · exact .triple (hexDigit_upper (by omega)) (hexDigit_upper (by omega))

/-! ## Separators -/

/-- Space, control characters and `&=?#+`. -/
def breaksLine (byte : UInt8) : Bool := byte ≤ 32 || byte == 127 || (Text.bytes "&=?#+").contains byte

theorem keptInQuery_unbroken (byte : UInt8) : keptInQuery byte = true → (!breaksLine byte) = true :=
  byte_table (P := fun byte => keptInQuery byte = true → (!breaksLine byte) = true) (by decide +kernel) byte

theorem encodeQuery_unbroken (s : String) : (Text.bytes (encodeQuery s)).filter breaksLine = [] := by
  have clean : (percentEncode keptInQuery (Text.bytes s)).all (fun byte => !breaksLine byte) = true := by
    refine HttpRequest.percentEncode_all (fun byte _ => keptInQuery_unbroken byte) (by decide) fun byte digit => ?_
    exact keptInQuery_unbroken byte (by rw [keptInQuery, digit]; rfl)
  rw [bytes_encodeQuery, List.filter_eq_nil_iff]
  intro byte member breaks
  have unbroken := List.all_eq_true.mp clean byte member
  rw [breaks] at unbroken
  contradiction

theorem imagePath_unbroken (image : String) : (Text.bytes (imagePath image)).filter breaksLine = [] := by
  rw [imagePath, Text.bytes_append, Text.bytes_append, List.filter_append, List.filter_append, encodeQuery_unbroken]
  decide

/-- The marks in the path of a pull, which are those that `pull_image` writes itself. -/
theorem pullPath_marks (image : String) : (Text.bytes (pullPath image)).filter breaksLine =
    Text.bytes (if (splitImageRef image).2 = "" then "?=" else "?=&=") := by
  unfold pullPath
  obtain ⟨name, tag⟩ := splitImageRef image
  have opening : (Text.bytes "/images/create?fromImage=").filter breaksLine = Text.bytes "?=" := by decide +kernel
  have between : (Text.bytes "&tag=").filter breaksLine = Text.bytes "&=" := by decide +kernel
  dsimp only
  rw [Text.bytes_append, Text.bytes_append, List.filter_append, List.filter_append, encodeQuery_unbroken, opening]
  by_cases untagged : tag = ""
  · rw [if_pos untagged, if_pos untagged]
    rfl
  · rw [if_neg untagged, if_neg untagged, Text.bytes_append, List.filter_append, encodeQuery_unbroken, between]
    rfl

/-- Percent-decoding gives back every string, so no two strings have one encoding. The output
consists of bytes that stand for themselves and of percent triples, and no separator comes into
a request line through it. -/
theorem encodeQuery_invertible_and_safe (s : String) :
    percentDecode (Text.bytes (encodeQuery s)) = some (Text.bytes s) ∧
      (∃ units : List (List UInt8), Text.bytes (encodeQuery s) = units.flatten ∧ ∀ unit ∈ units, QueryUnit unit) ∧
      Function.Injective encodeQuery ∧
      (Text.bytes (encodeQuery s)).filter breaksLine = [] ∧
      (Text.bytes (imagePath s)).filter breaksLine = [] ∧
      (Text.bytes (pullPath s)).filter breaksLine =
        Text.bytes (if (splitImageRef s).2 = "" then "?=" else "?=&=") := by
  have decoded (s : String) : percentDecode (Text.bytes (encodeQuery s)) = some (Text.bytes s) := by
    rw [bytes_encodeQuery]
    exact HttpRequest.percentDecode_encode (by decide) _
  refine ⟨decoded s, ⟨(Text.bytes s).map (encodeByte keptInQuery), ?_, ?_⟩, ?_, encodeQuery_unbroken s,
    imagePath_unbroken s, pullPath_marks s⟩
  · rw [bytes_encodeQuery, percentEncode, List.flatMap_def]
  · intro unit member
    obtain ⟨byte, -, rfl⟩ := List.mem_map.mp member
    exact encodeByte_unit byte
  · intro first second same
    have back := decoded first
    rw [same, decoded second] at back
    exact Text.bytes_injective (Option.some.inj back).symm

end SkyDaemon.Runtime
