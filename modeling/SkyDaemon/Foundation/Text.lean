import Mathlib

/-! Text that is joined with a separator and read back: uniqueness of the split,
the bytes of a string, decimal integers and lower-case hexadecimal digests. -/
namespace SkyDaemon.Text

/-- The UTF-8 bytes of a string, Rust's `as_bytes`. -/
def bytes (s : String) : List UInt8 := s.toByteArray.data.toList

theorem bytes_injective : Function.Injective bytes := by
  intro a b same
  exact String.toByteArray_inj.mp (ByteArray.ext (Array.toList_inj.mp same))

theorem bytes_eq (s : String) : bytes s = s.toList.flatMap String.utf8EncodeChar := by
  rw [bytes, ← String.utf8Encode_toList, List.utf8Encode]
  exact List.toList_data_toByteArray

theorem bytes_append (s t : String) : bytes (s ++ t) = bytes s ++ bytes t := by
  rw [bytes_eq, bytes_eq, bytes_eq, String.toList_append, List.flatMap_append]

/-- An ASCII byte occurs in the encoding of its own character only. -/
theorem mem_utf8EncodeChar {c d : Char} (ascii : c.toNat ≤ 127) :
    UInt8.ofNat c.toNat ∈ String.utf8EncodeChar d ↔ c = d := by
  have single : d.toNat ≤ 127 → (UInt8.ofNat c.toNat = UInt8.ofNat d.toNat ↔ c = d) := by
    intro ascii'
    rw [← UInt8.toNat_inj, UInt8.toNat_ofNat', UInt8.toNat_ofNat',
      Nat.mod_eq_of_lt (by omega), Nat.mod_eq_of_lt (by omega)]
    exact Char.toNat_inj
  have longer (offset : Nat) (low : 128 ≤ offset) (high : offset < 256) :
      UInt8.ofNat c.toNat ≠ UInt8.ofNat offset := by
    rw [Ne, ← UInt8.toNat_inj, UInt8.toNat_ofNat', UInt8.toNat_ofNat']
    omega
  have different (wide : ¬ d.toNat ≤ 127) : c ≠ d := by
    rintro rfl
    contradiction
  unfold String.utf8EncodeChar
  change (UInt8.ofNat c.toNat ∈ if d.toNat ≤ 127 then _ else if d.toNat ≤ 2047 then _ else
    if d.toNat ≤ 65535 then _ else _) ↔ _
  split
  · rename_i ascii'
    rw [List.mem_singleton]
    exact single ascii'
  · rename_i wide
    refine iff_of_false ?_ (different wide)
    split
    · simp only [List.mem_cons, List.not_mem_nil, or_false, not_or]
      refine ⟨longer _ ?_ ?_, longer _ ?_ ?_⟩ <;> omega
    · split
      · simp only [List.mem_cons, List.not_mem_nil, or_false, not_or]
        refine ⟨longer _ ?_ ?_, longer _ ?_ ?_, longer _ ?_ ?_⟩ <;> omega
      · simp only [List.mem_cons, List.not_mem_nil, or_false, not_or]
        refine ⟨longer _ ?_ ?_, longer _ ?_ ?_, longer _ ?_ ?_, longer _ ?_ ?_⟩ <;> omega

theorem mem_bytes {c : Char} (ascii : c.toNat ≤ 127) (s : String) :
    UInt8.ofNat c.toNat ∈ bytes s ↔ c ∈ s.toList := by
  simp only [bytes_eq, List.mem_flatMap, mem_utf8EncodeChar ascii]
  constructor
  · rintro ⟨d, member, rfl⟩
    exact member
  · intro member
    exact ⟨c, member, rfl⟩

theorem utf8EncodeChar_ascii {c : Char} (ascii : c.toNat ≤ 127) :
    String.utf8EncodeChar c = [UInt8.ofNat c.toNat] := by
  unfold String.utf8EncodeChar
  exact if_pos ascii

theorem bytes_ascii {s : String} (ascii : ∀ c ∈ s.toList, c.toNat ≤ 127) :
    bytes s = s.toList.map fun c => UInt8.ofNat c.toNat := by
  rw [bytes_eq, List.map_eq_flatMap]
  exact List.flatMap_congr fun c member => utf8EncodeChar_ascii (ascii c member)

/-- A text whose bytes are ASCII has only ASCII characters. -/
theorem ascii_of_bytes {s : String} (low : ∀ byte ∈ bytes s, byte.toNat ≤ 127) : ∀ c ∈ s.toList, c.toNat ≤ 127 := by
  intro c member
  obtain ⟨first, others, encoded⟩ := List.exists_cons_of_ne_nil (String.utf8EncodeChar_ne_nil (c := c))
  have inside : first ∈ String.utf8EncodeChar c := encoded ▸ List.mem_cons_self
  have bound : first.toNat ≤ 127 := by
    refine low first ?_
    rw [bytes_eq]
    exact List.mem_flatMap.mpr ⟨c, member, inside⟩
  have own : (Char.ofNat first.toNat).toNat = first.toNat := by
    have valid : first.toNat.isValidChar := .inl (by omega)
    rw [Char.ofNat, dif_pos valid]
    rfl
  have same : Char.ofNat first.toNat = c := by
    refine (mem_utf8EncodeChar (by omega)).mp ?_
    rwa [own, UInt8.ofNat_toNat]
  rw [← same, own]
  exact bound

/-- The bytes end in an ASCII byte exactly when the text ends in its character. -/
theorem getLast?_bytes {c : Char} (ascii : c.toNat ≤ 127) (s : String) :
    (bytes s).getLast? = some (UInt8.ofNat c.toNat) ↔ s.toList.getLast? = some c := by
  rw [bytes_eq]
  rcases List.eq_nil_or_concat s.toList with empty | ⟨front, last, split⟩
  · simp [empty]
  · rw [List.concat_eq_append] at split
    have shape : s.toList.flatMap String.utf8EncodeChar =
        front.flatMap String.utf8EncodeChar ++ String.utf8EncodeChar last := by
      rw [split, List.flatMap_append, List.flatMap_singleton]
    rw [shape, split, List.getLast?_append_of_ne_nil _ String.utf8EncodeChar_ne_nil, List.getLast?_concat]
    constructor
    · intro ends
      rw [(mem_utf8EncodeChar ascii).mp (List.mem_of_getLast? ends)]
    · intro same
      cases same
      rw [utf8EncodeChar_ascii ascii]
      rfl

theorem bytes_dropLast {c : Char} (ascii : c.toNat ≤ 127) {text : List Char} (ends : text.getLast? = some c) :
    bytes (String.ofList text.dropLast) = (bytes (String.ofList text)).dropLast := by
  obtain ⟨front, rfl⟩ := List.getLast?_eq_some_iff.mp ends
  rw [bytes_eq, bytes_eq, String.toList_ofList, String.toList_ofList, List.dropLast_concat, List.flatMap_append,
    List.flatMap_singleton, utf8EncodeChar_ascii ascii, List.dropLast_concat]

theorem splitOn_free_append [DecidableEq α] {separator : α} {front : List α} (free : separator ∉ front)
    (rest : List α) :
    (front ++ rest).splitOn separator = (rest.splitOn separator).modifyHead (front ++ ·) := by
  induction front with
  | nil => cases found : rest.splitOn separator <;> simp [found]
  | cons first others ih =>
    have other : ¬ first = separator := fun same => free (same ▸ List.mem_cons_self)
    have following := ih fun member => free (List.mem_cons_of_mem _ member)
    rw [List.cons_append, List.splitOn_cons_eq_if_modifyHead, if_neg (by simpa using other), following,
      List.modifyHead_modifyHead]
    rfl

/-- Pieces that each end in the separator, and one behind the last of them. -/
theorem splitOn_terminated [DecidableEq α] {separator : α} {pieces : List (List α)} {last : List α}
    (free : ∀ piece ∈ pieces, separator ∉ piece) (freeLast : separator ∉ last) :
    (pieces.flatMap (· ++ [separator]) ++ last).splitOn separator = pieces ++ [last] := by
  induction pieces with
  | nil => exact List.splitOn_eq_singleton freeLast
  | cons piece rest ih =>
    have others := ih fun piece member => free piece (List.mem_cons_of_mem _ member)
    rw [List.flatMap_cons, List.append_assoc, List.append_assoc, List.singleton_append,
      List.splitOn_append_cons_self_of_not_mem (free piece List.mem_cons_self), others, List.cons_append]

/-- Splitting a text at an ASCII character splits its bytes at the byte of that character. -/
theorem splitOn_bytes {c : Char} (ascii : c.toNat ≤ 127) (text : List Char) :
    (text.flatMap String.utf8EncodeChar).splitOn (UInt8.ofNat c.toNat) =
      (text.splitOn c).map (·.flatMap String.utf8EncodeChar) := by
  induction text with
  | nil => rfl
  | cons first rest ih =>
    rw [List.flatMap_cons]
    by_cases same : first = c
    · subst same
      rw [utf8EncodeChar_ascii ascii, List.singleton_append, List.splitOn_cons_eq_if_modifyHead,
        List.splitOn_cons_eq_if_modifyHead, if_pos (beq_self_eq_true _), if_pos (beq_self_eq_true _), ih]
      rfl
    · have free : UInt8.ofNat c.toNat ∉ String.utf8EncodeChar first := by
        rw [mem_utf8EncodeChar ascii]
        exact Ne.symm same
      have step : ([first] ++ rest).splitOn c = (rest.splitOn c).modifyHead ([first] ++ ·) :=
        splitOn_free_append (by simpa using Ne.symm same) rest
      rw [splitOn_free_append free, ih, ← List.singleton_append, step]
      cases List.splitOn c rest <;> simp

/-- The first occurrence of the separator splits a text in one way only. -/
theorem split_unique {separator : α} {first second : List α} (left : separator ∉ first)
    (right : separator ∉ second)
    (same : first ++ separator :: rest = second ++ separator :: tail) :
    first = second ∧ rest = tail := by
  induction first generalizing second with
  | nil =>
    cases second with
    | nil => exact ⟨rfl, (List.cons.inj same).2⟩
    | cons head second =>
      have equal := (List.cons.inj same).1
      exact absurd (equal ▸ List.mem_cons_self) right
  | cons head first ih =>
    cases second with
    | nil =>
      have equal := (List.cons.inj same).1
      exact absurd (equal ▸ List.mem_cons_self) left
    | cons head' second =>
      obtain ⟨equal, following⟩ := List.cons.inj same
      obtain ⟨sameFirst, sameRest⟩ := ih (fun member => left (List.mem_cons_of_mem _ member))
        (fun member => right (List.mem_cons_of_mem _ member)) following
      exact ⟨by rw [equal, sameFirst], sameRest⟩

/-- Four fields joined with a separator. -/
def joined (separator : α) (a b c d : List α) : List α :=
  a ++ separator :: (b ++ separator :: (c ++ separator :: d))

/-- A joined text whose first and third fields are free of the separator equals
no other join, whatever the other's first and third fields hold. Counting the
separators leaves none to hide inside them. -/
theorem joined_unique [DecidableEq α] {separator : α} {a b c d a' b' c' d' : List α}
    (ha : separator ∉ a) (hc : separator ∉ c)
    (hb : separator ∉ b) (hd : separator ∉ d) (hb' : separator ∉ b') (hd' : separator ∉ d')
    (same : joined separator a b c d = joined separator a' b' c' d') :
    a = a' ∧ b = b' ∧ c = c' ∧ d = d' := by
  have counts := congrArg (List.count separator) same
  simp only [joined, List.count_append, List.count_cons_self, List.count_eq_zero_of_not_mem ha,
    List.count_eq_zero_of_not_mem hb, List.count_eq_zero_of_not_mem hc,
    List.count_eq_zero_of_not_mem hd, List.count_eq_zero_of_not_mem hb',
    List.count_eq_zero_of_not_mem hd'] at counts
  have ha' : separator ∉ a' := List.count_eq_zero.mp (by omega)
  have hc' : separator ∉ c' := List.count_eq_zero.mp (by omega)
  obtain ⟨sameA, same⟩ := split_unique ha ha' same
  obtain ⟨sameB, same⟩ := split_unique hb hb' same
  obtain ⟨sameC, sameD⟩ := split_unique hc hc' same
  exact ⟨sameA, sameB, sameC, sameD⟩

theorem nat_repr_digits (n : Nat) : ∀ c ∈ n.repr.toList, c.isDigit = true := by
  intro c member
  rw [Nat.toList_repr] at member
  exact Nat.isDigit_of_mem_toDigits (by decide) (by decide) member

theorem nat_repr_free {c : Char} (n : Nat) (other : c.isDigit = false) : c ∉ n.repr.toList := by
  intro member
  rw [nat_repr_digits n c member] at other
  contradiction

theorem bytes_nat (n : Nat) : ∀ byte ∈ bytes n.repr, 48 ≤ byte ∧ byte ≤ 57 := by
  have digit : ∀ c ∈ n.repr.toList, 48 ≤ c.toNat ∧ c.toNat ≤ 57 := by
    intro c member
    have isDigit := nat_repr_digits n c member
    simp only [Char.isDigit, Bool.and_eq_true, decide_eq_true_eq] at isDigit
    exact ⟨UInt32.le_iff_toNat_le.mp isDigit.1, UInt32.le_iff_toNat_le.mp isDigit.2⟩
  intro byte member
  rw [bytes_ascii fun c member => (digit c member).2.trans (by decide)] at member
  obtain ⟨c, inside, rfl⟩ := List.mem_map.mp member
  obtain ⟨low, high⟩ := digit c inside
  rw [UInt8.le_iff_toNat_le, UInt8.le_iff_toNat_le, UInt8.toNat_ofNat', Nat.mod_eq_of_lt (by omega)]
  exact ⟨low, high⟩

/-- A decimal integer, signed or not, holds no `.`. -/
theorem int_repr_no_dot (z : Int) : '.' ∉ z.repr.toList := by
  cases z with
  | ofNat n => exact nat_repr_free n rfl
  | negSucc n =>
    have split : (Int.negSucc n).repr.toList = '-' :: (n + 1).repr.toList := by
      simp [Int.repr, String.toList_append]
    rw [split]
    intro member
    rcases List.mem_cons.mp member with same | member
    · exact absurd same (by decide)
    · exact nat_repr_free _ rfl member

def hexPair (byte : UInt8) : List Char :=
  [Nat.digitChar (byte.toNat / 16), Nat.digitChar (byte.toNat % 16)]

/-- `hex::encode`: two lower-case digits for each byte. -/
def hexEncode (bytes : List UInt8) : String := String.ofList (bytes.flatMap hexPair)

theorem digitChar_injective {a b : Nat} (ha : a < 16) (hb : b < 16)
    (same : Nat.digitChar a = Nat.digitChar b) : a = b := by
  have table : ∀ a < 16, ∀ b < 16, Nat.digitChar a = Nat.digitChar b → a = b := by decide
  exact table a ha b hb same

theorem digitChar_ne_dot {a : Nat} (ha : a < 16) : Nat.digitChar a ≠ '.' := by
  have table : ∀ a < 16, Nat.digitChar a ≠ '.' := by decide
  exact table a ha

theorem hexPair_injective {a b : UInt8} (same : hexPair a = hexPair b) : a = b := by
  have ha := a.toNat_lt
  have hb := b.toNat_lt
  obtain ⟨high, rest⟩ := List.cons.inj same
  have sameHigh := digitChar_injective (by omega) (by omega) high
  have sameLow := digitChar_injective (by omega) (by omega) (List.cons.inj rest).1
  exact UInt8.toNat_inj.mp (by omega)

theorem hexEncode_injective : Function.Injective hexEncode := by
  intro a b same
  have chars : a.flatMap hexPair = b.flatMap hexPair := String.ofList_injective same
  clear same
  induction a generalizing b with
  | nil =>
    cases b with
    | nil => rfl
    | cons y b => simp [hexPair] at chars
  | cons x a ih =>
    cases b with
    | nil => simp [hexPair] at chars
    | cons y b =>
      simp only [List.flatMap_cons] at chars
      obtain ⟨first, rest⟩ := List.append_inj chars rfl
      rw [hexPair_injective first, ih rest]

theorem hexEncode_no_dot (bytes : List UInt8) : '.' ∉ (hexEncode bytes).toList := by
  intro member
  rw [hexEncode, String.toList_ofList] at member
  obtain ⟨byte, _, member⟩ := List.mem_flatMap.mp member
  have bound := byte.toNat_lt
  rcases List.mem_cons.mp member with same | member
  · exact digitChar_ne_dot (by omega) same.symm
  · exact digitChar_ne_dot (a := byte.toNat % 16) (by omega) (List.mem_singleton.mp member).symm

/-! ## Lossy decoding -/

def isContinuation (byte : UInt8) : Bool := 0x80 ≤ byte && byte ≤ 0xBF

/-- Whether a second byte may follow the first byte of a longer sequence: no
overlong forms, no surrogates, nothing above U+10FFFF. -/
def secondFollows (first second : UInt8) : Bool :=
  if first == 0xE0 then 0xA0 ≤ second && second ≤ 0xBF
  else if first == 0xED then 0x80 ≤ second && second ≤ 0x9F
  else if first == 0xF0 then 0x90 ≤ second && second ≤ 0xBF
  else if first == 0xF4 then 0x80 ≤ second && second ≤ 0x8F
  else isContinuation second

/-- The bytes of a sequence that its first byte announces. -/
def sequenceLength (first : UInt8) : Nat :=
  if first < 0x80 then 1
  else if 0xC2 ≤ first && first ≤ 0xDF then 2
  else if 0xE0 ≤ first && first ≤ 0xEF then 3
  else if 0xF0 ≤ first && first ≤ 0xF4 then 4
  else 0

/-- How many of the following bytes belong to the sequence, up to the first that does not fit. -/
def following (first : UInt8) (rest : List UInt8) : List UInt8 :=
  match rest.take (sequenceLength first - 1) with
  | [] => []
  | second :: others =>
      if secondFollows first second then second :: others.takeWhile isContinuation else []

def replacement : Char := Char.ofNat 0xFFFD

def sequenceChar (first : UInt8) (others : List UInt8) : Char :=
  let lead := first.toNat % 2 ^ (7 - sequenceLength first)
  if sequenceLength first == 1 then Char.ofNat first.toNat
  else Char.ofNat (others.foldl (fun value byte => value * 64 + byte.toNat % 64) lead)

/-- `String::from_utf8_lossy`: a complete sequence is its character, and what is
read of a broken one, at least a byte, is one replacement character. -/
def lossyChars : Nat → List UInt8 → List Char
  | 0, _ | _, [] => []
  | fuel + 1, first :: rest =>
      let others := following first rest
      (if others.length + 1 == sequenceLength first then sequenceChar first others else replacement) ::
        lossyChars fuel (rest.drop others.length)

def lossy (input : List UInt8) : String := String.ofList (lossyChars input.length input)

theorem lossyChars_fuel {input : List UInt8} (enough : input.length ≤ fuel) :
    lossyChars fuel input = lossyChars input.length input := by
  induction fuel using Nat.strongRecOn generalizing input with
  | ind fuel ih =>
    cases input with
    | nil => cases fuel <;> rfl
    | cons first rest =>
      cases fuel with
      | zero => contradiction
      | succ fuel =>
        have less : (rest.drop (following first rest).length).length ≤ rest.length := by
          rw [List.length_drop]
          omega
        have enough : rest.length ≤ fuel := by simpa using enough
        simp only [lossyChars, List.length_cons]
        rw [ih fuel (Nat.lt_succ_self _) (less.trans enough)]
        by_cases same : rest.length = fuel
        · rw [same, ih fuel (Nat.lt_succ_self _) (less.trans enough)]
        · rw [ih rest.length (by omega) less]

/-- The decoder as a recursion over what is left. -/
theorem lossyChars_cons (first : UInt8) (rest : List UInt8) :
    lossyChars (first :: rest).length (first :: rest) =
      (if (following first rest).length + 1 == sequenceLength first then
        sequenceChar first (following first rest) else replacement) ::
      lossyChars (rest.drop (following first rest).length).length
        (rest.drop (following first rest).length) := by
  simp only [List.length_cons, lossyChars]
  rw [lossyChars_fuel (by rw [List.length_drop]; omega)]

theorem sequenceLength_ofNat (bound : n < 256) : sequenceLength (UInt8.ofNat n) =
    if n < 128 then 1 else if 194 ≤ n ∧ n ≤ 223 then 2 else if 224 ≤ n ∧ n ≤ 239 then 3
    else if 240 ≤ n ∧ n ≤ 244 then 4 else 0 := by
  have value : (UInt8.ofNat n).toNat = n := by rw [UInt8.toNat_ofNat', Nat.mod_eq_of_lt bound]
  simp only [sequenceLength, UInt8.lt_iff_toNat_lt, UInt8.le_iff_toNat_le, value, Bool.and_eq_true,
    decide_eq_true_eq, UInt8.reduceToNat]

theorem isContinuation_ofNat (n : Nat) : isContinuation (UInt8.ofNat (n % 64 + 128)) = true := by
  have value : (UInt8.ofNat (n % 64 + 128)).toNat = n % 64 + 128 := by
    rw [UInt8.toNat_ofNat', Nat.mod_eq_of_lt (by omega)]
  simp only [isContinuation, UInt8.le_iff_toNat_le, value, Bool.and_eq_true, decide_eq_true_eq, UInt8.reduceToNat]
  omega

theorem secondFollows_ofNat (first : m < 256) (second : n < 256) :
    secondFollows (UInt8.ofNat m) (UInt8.ofNat n) = true ↔
      if m = 224 then 160 ≤ n ∧ n ≤ 191 else if m = 237 then 128 ≤ n ∧ n ≤ 159
      else if m = 240 then 144 ≤ n ∧ n ≤ 191 else if m = 244 then 128 ≤ n ∧ n ≤ 143 else 128 ≤ n ∧ n ≤ 191 := by
  have value {k : Nat} (bound : k < 256) : (UInt8.ofNat k).toNat = k := by
    rw [UInt8.toNat_ofNat', Nat.mod_eq_of_lt bound]
  simp only [secondFollows, isContinuation, beq_iff_eq, ← UInt8.toNat_inj, UInt8.le_iff_toNat_le, value first,
    value second, UInt8.reduceToNat]
  split_ifs <;> simp

theorem following_complete {first second : UInt8} {tail : List UInt8} (length : sequenceLength first = tail.length + 2)
    (fits : secondFollows first second = true) (continued : ∀ byte ∈ tail, isContinuation byte = true)
    (rest : List UInt8) : following first (second :: tail ++ rest) = second :: tail := by
  have taken : (second :: tail ++ rest).take (sequenceLength first - 1) = second :: tail := by
    rw [length]
    exact List.take_left' rfl
  rw [following, taken]
  dsimp only
  rw [if_pos fits, List.takeWhile_eq_self_iff.mpr continued]

/-- What the bytes of a longer sequence add up to. -/
theorem sequenceChar_eq {first : UInt8} {others : List UInt8} (length : sequenceLength first = others.length + 1)
    (longer : others ≠ []) : sequenceChar first others =
      Char.ofNat (others.foldl (fun value byte => value * 64 + byte.toNat % 64)
        (first.toNat % 2 ^ (6 - others.length))) := by
  have more : ¬(others.length + 1 == 1) = true := by simpa using longer
  rw [sequenceChar, length, if_neg more, show 7 - (others.length + 1) = 6 - others.length by omega]

/-- The bytes of a character are one complete sequence, whatever stands behind them. -/
theorem utf8EncodeChar_sequence (c : Char) : ∃ first others, String.utf8EncodeChar c = first :: others ∧
    sequenceLength first = others.length + 1 ∧ (∀ rest, following first (others ++ rest) = others) ∧
    sequenceChar first others = c := by
  have valid : c.toNat < 0xD800 ∨ 0xDFFF < c.toNat ∧ c.toNat < 0x110000 := c.valid
  have char {n : Nat} (same : n = c.toNat) : Char.ofNat n = c := by rw [same, Char.ofNat_toNat]
  have value {k : Nat} (bound : k < 256) : (UInt8.ofNat k).toNat = k := by
    rw [UInt8.toNat_ofNat', Nat.mod_eq_of_lt bound]
  have encoded : String.utf8EncodeChar c = if c.toNat ≤ 127 then [UInt8.ofNat c.toNat]
    else if c.toNat ≤ 2047 then [UInt8.ofNat (c.toNat / 64 % 32 + 192), UInt8.ofNat (c.toNat % 64 + 128)]
    else if c.toNat ≤ 65535 then
      [UInt8.ofNat (c.toNat / 4096 % 16 + 224), UInt8.ofNat (c.toNat / 64 % 64 + 128), UInt8.ofNat (c.toNat % 64 + 128)]
    else [UInt8.ofNat (c.toNat / 262144 % 8 + 240), UInt8.ofNat (c.toNat / 4096 % 64 + 128),
      UInt8.ofNat (c.toNat / 64 % 64 + 128), UInt8.ofNat (c.toNat % 64 + 128)] := rfl
  rw [encoded]
  split_ifs
  · have length : sequenceLength (UInt8.ofNat c.toNat) = 1 := by
      rw [sequenceLength_ofNat (by omega), if_pos (by omega)]
    refine ⟨_, _, rfl, length, fun rest => ?_, ?_⟩
    · simp [following, length]
    · rw [sequenceChar, length]
      exact char (value (by omega))
  · have length : sequenceLength (UInt8.ofNat (c.toNat / 64 % 32 + 192)) = 2 := by
      rw [sequenceLength_ofNat (by omega), if_neg (by omega), if_pos (by omega)]
    refine ⟨_, _, rfl, length, following_complete length ?_ (by simp), ?_⟩
    · rw [secondFollows_ofNat (by omega) (by omega)]
      split_ifs <;> omega
    · rw [sequenceChar_eq length (by simp)]
      apply char
      simp only [List.foldl_cons, List.foldl_nil, value (show c.toNat / 64 % 32 + 192 < 256 by omega),
        value (show c.toNat % 64 + 128 < 256 by omega), List.length_cons, List.length_nil]
      omega
  · have length : sequenceLength (UInt8.ofNat (c.toNat / 4096 % 16 + 224)) = 3 := by
      rw [sequenceLength_ofNat (by omega), if_neg (by omega), if_neg (by omega), if_pos (by omega)]
    refine ⟨_, _, rfl, length, following_complete length ?_
      (List.forall_mem_cons.mpr ⟨isContinuation_ofNat _, nofun⟩), ?_⟩
    · rw [secondFollows_ofNat (by omega) (by omega)]
      split_ifs <;> omega
    · rw [sequenceChar_eq length (by simp)]
      apply char
      simp only [List.foldl_cons, List.foldl_nil, value (show c.toNat / 4096 % 16 + 224 < 256 by omega),
        value (show c.toNat / 64 % 64 + 128 < 256 by omega),
        value (show c.toNat % 64 + 128 < 256 by omega), List.length_cons, List.length_nil]
      omega
  · have length : sequenceLength (UInt8.ofNat (c.toNat / 262144 % 8 + 240)) = 4 := by
      rw [sequenceLength_ofNat (by omega), if_neg (by omega), if_neg (by omega), if_neg (by omega), if_pos (by omega)]
    refine ⟨_, _, rfl, length, following_complete length ?_
      (List.forall_mem_cons.mpr ⟨isContinuation_ofNat _, List.forall_mem_cons.mpr ⟨isContinuation_ofNat _, nofun⟩⟩), ?_⟩
    · rw [secondFollows_ofNat (by omega) (by omega)]
      split_ifs <;> omega
    · rw [sequenceChar_eq length (by simp)]
      apply char
      simp only [List.foldl_cons, List.foldl_nil, value (show c.toNat / 262144 % 8 + 240 < 256 by omega),
        value (show c.toNat / 4096 % 64 + 128 < 256 by omega), value (show c.toNat / 64 % 64 + 128 < 256 by omega),
        value (show c.toNat % 64 + 128 < 256 by omega), List.length_cons, List.length_nil]
      omega

theorem lossyChars_char (c : Char) (rest : List UInt8) :
    lossyChars (String.utf8EncodeChar c ++ rest).length (String.utf8EncodeChar c ++ rest) =
      c :: lossyChars rest.length rest := by
  obtain ⟨first, others, encoded, length, complete, char⟩ := utf8EncodeChar_sequence c
  rw [encoded, List.cons_append, lossyChars_cons, complete, length, char, List.drop_left]
  simp

theorem lossyChars_chars (text : List Char) (rest : List UInt8) :
    lossyChars (text.flatMap String.utf8EncodeChar ++ rest).length (text.flatMap String.utf8EncodeChar ++ rest) =
      text ++ lossyChars rest.length rest := by
  induction text with
  | nil => rfl
  | cons c text ih => rw [List.flatMap_cons, List.append_assoc, lossyChars_char, ih, List.cons_append]

-- "é", then a cut-off euro sign before "x", then a stray continuation byte
example : lossy [0xC3, 0xA9, 0xE2, 0x82, 0x78, 0x80] = "é\uFFFDx\uFFFD" := by decide

/-- `str::from_utf8`: valid input is what the lossy decoding leaves as it is. -/
def fromUtf8 (input : List UInt8) : Option String :=
  if bytes (lossy input) = input then some (lossy input) else none

theorem bytes_of_fromUtf8 (decoded : fromUtf8 input = some text) : input = bytes text := by
  unfold fromUtf8 at decoded
  split at decoded
  · rename_i same
    cases decoded
    exact same.symm
  · cases decoded

theorem bytes_lossy (valid : (fromUtf8 input).isSome = true) : bytes (lossy input) = input := by
  unfold fromUtf8 at valid
  split at valid
  · assumption
  · contradiction

theorem fromUtf8_eq_some_iff : fromUtf8 input = some text ↔ input = bytes text := by
  refine ⟨bytes_of_fromUtf8, ?_⟩
  rintro rfl
  have decoded : lossy (bytes text) = text := by
    have whole := lossyChars_chars text.toList []
    rw [List.append_nil, ← bytes_eq] at whole
    rw [lossy, whole]
    simp [lossyChars]
  rw [fromUtf8, decoded, if_pos rfl]

/-- What stands before an ASCII byte are whole characters. -/
theorem bytes_before_ascii {c : Char} (ascii : c.toNat ≤ 127)
    (stands : bytes text = front ++ UInt8.ofNat c.toNat :: rest) : ∃ before, front = bytes before := by
  rw [bytes_eq] at stands
  suffices ∃ before : List Char, front = before.flatMap String.utf8EncodeChar by
    obtain ⟨before, same⟩ := this
    exact ⟨String.ofList before, by rw [bytes_eq, String.toList_ofList, same]⟩
  generalize text.toList = chars at stands
  induction chars generalizing front with
  | nil => simp at stands
  | cons d chars ih =>
    rw [List.flatMap_cons, List.append_eq_append_iff] at stands
    rcases stands with ⟨part, rfl, stands⟩ | ⟨part, encoded, same⟩
    · obtain ⟨before, rfl⟩ := ih stands
      exact ⟨d :: before, by rw [List.flatMap_cons]⟩
    · cases part with
      | nil => exact ⟨[d], by simpa using encoded.symm⟩
      | cons byte part =>
        obtain ⟨rfl, -⟩ := List.cons.inj same
        -- the byte is in the encoding of `d`, which is then this byte alone
        have own : c = d := (mem_utf8EncodeChar ascii).mp (encoded ▸ List.mem_append_right _ List.mem_cons_self)
        rw [← own, utf8EncodeChar_ascii ascii] at encoded
        have length := congrArg List.length encoded
        rw [List.length_singleton, List.length_append, List.length_cons] at length
        exact ⟨[], List.eq_nil_of_length_eq_zero (by omega)⟩

/-- What stands behind the bytes of a text in the bytes of another is the rest of that text. -/
theorem bytes_eq_append (same : bytes text = bytes front ++ rest) :
    ∃ back, rest = bytes back ∧ text = front ++ back := by
  rw [bytes_eq, bytes_eq] at same
  have decoded : text.toList = front.toList ++ lossyChars rest.length rest := by
    have whole := lossyChars_chars text.toList []
    rw [List.append_nil, same, lossyChars_chars] at whole
    simpa [lossyChars] using whole.symm
  refine ⟨String.ofList (lossyChars rest.length rest), ?_, ?_⟩
  · rw [decoded, List.flatMap_append] at same
    rw [bytes_eq, String.toList_ofList]
    exact (List.append_cancel_left same).symm
  · rw [← String.toList_inj, String.toList_append, String.toList_ofList, decoded]

/-- Unicode's `White_Space`. -/
def isWhitespace (c : Char) : Bool :=
  let v := c.toNat
  (9 ≤ v && v ≤ 13) || v == 0x20 || v == 0x85 || v == 0xA0 || v == 0x1680 ||
    (0x2000 ≤ v && v ≤ 0x200A) || v == 0x2028 || v == 0x2029 || v == 0x202F || v == 0x205F ||
    v == 0x3000

def trim (text : List Char) : List Char := (text.dropWhile isWhitespace).rdropWhile isWhitespace

/-- `char::to_digit`. -/
def toDigit (radix : Nat) (c : Char) : Option Nat :=
  let value :=
    if '0' ≤ c && c ≤ '9' then some (c.toNat - 48)
    else if 'a' ≤ c && c ≤ 'z' then some (c.toNat - 87)
    else if 'A' ≤ c && c ≤ 'Z' then some (c.toNat - 55)
    else none
  value.filter (· < radix)

/-- `from_str_radix` of an unsigned type with values below the limit: at least one
digit, a leading `+` allowed. -/
def parseUnsigned (radix limit : Nat) (text : List Char) : Option Nat :=
  let digits := match text with
    | '+' :: digits => digits
    | digits => digits
  if digits = [] then none
  else
    match digits.mapM (toDigit radix) with
    | none => none
    | some values => (some (values.foldl (fun value digit => value * radix + digit) 0)).filter (· < limit)

/-- The number that a sequence of digits stands for. -/
def digitsValue (radix : Nat) (digits : List Nat) : Nat := digits.foldl (fun value digit => value * radix + digit) 0

/-- Digits are ASCII letters and decimal digits. -/
theorem toDigit_range {c : Char} (digit : toDigit radix c = some value) :
    48 ≤ c.toNat ∧ c.toNat ≤ 57 ∨ 65 ≤ c.toNat ∧ c.toNat ≤ 90 ∨ 97 ≤ c.toNat ∧ c.toNat ≤ 122 := by
  have order (a b : Char) : a ≤ b ↔ a.toNat ≤ b.toNat := Iff.rfl
  simp only [toDigit, Bool.and_eq_true, decide_eq_true_eq, order] at digit
  split at digit
  · rename_i decimal
    exact .inl decimal
  · split at digit
    · rename_i lower
      exact .inr (.inr lower)
    · split at digit
      · rename_i upper
        exact .inr (.inl upper)
      · cases digit

theorem isWhitespace_toDigit {c : Char} (digit : toDigit radix c = some value) : isWhitespace c = false := by
  have range := toDigit_range digit
  simp only [isWhitespace, Bool.or_eq_false_iff, Bool.and_eq_false_iff, decide_eq_false_iff_not, beq_eq_false_iff_ne]
  omega

theorem mapM_digits {text : List Char} (digits : text.mapM (toDigit radix) = some values) :
    ∀ c ∈ text, ∃ value, toDigit radix c = some value := by
  induction text generalizing values with
  | nil => nofun
  | cons first rest ih =>
    simp only [List.mapM_cons, Option.bind_eq_bind, Option.bind_eq_some_iff] at digits
    obtain ⟨value, digit, others, following, -⟩ := digits
    intro c member
    rcases List.mem_cons.mp member with rfl | later
    · exact ⟨value, digit⟩
    · exact ih following c later

/-- Trimming takes white space off both ends. -/
theorem trim_split (text : List Char) : ∃ front back, text = front ++ trim text ++ back ∧
    ∀ c ∈ front ++ back, isWhitespace c = true := by
  refine ⟨text.takeWhile isWhitespace, (text.dropWhile isWhitespace).rtakeWhile isWhitespace, ?_, ?_⟩
  · rw [trim, List.append_assoc, List.rdropWhile_append_rtakeWhile, List.takeWhile_append_dropWhile]
  · intro c member
    rcases List.mem_append.mp member with before | behind
    · exact List.mem_takeWhile_imp before
    · exact List.mem_rtakeWhile_imp behind

theorem dropWhile_padded {p : α → Bool} {front text : List α} (blank : ∀ c ∈ front, p c = true)
    (free : ∀ c ∈ text, p c = false) (stated : text ≠ []) (rest : List α) :
    (front ++ text ++ rest).dropWhile p = text ++ rest := by
  obtain ⟨first, others, rfl⟩ := List.exists_cons_of_ne_nil stated
  rw [List.append_assoc, List.dropWhile_append_of_pos blank, List.cons_append,
    List.dropWhile_cons_of_neg (by simpa using free first List.mem_cons_self)]

/-- Digits between white space. -/
theorem trim_digits {front text back : List Char} (blank : ∀ c ∈ front ++ back, isWhitespace c = true)
    (digits : text.mapM (toDigit radix) = some values) (stated : text ≠ []) :
    trim (front ++ text ++ back) = text := by
  have free : ∀ c ∈ text, isWhitespace c = false := by
    intro c member
    obtain ⟨value, digit⟩ := mapM_digits digits c member
    exact isWhitespace_toDigit digit
  have before := dropWhile_padded (fun c member => blank c (List.mem_append_left _ member)) free stated back
  have behind : (back.reverse ++ text.reverse ++ []).dropWhile isWhitespace = text.reverse ++ [] :=
    dropWhile_padded (by simpa using fun c member => blank c (List.mem_append_right _ member))
      (by simpa using free) (by simpa using stated) []
  rw [List.append_nil, List.append_nil] at behind
  rw [trim, before, List.rdropWhile, List.reverse_append, behind, List.reverse_reverse]

theorem unsigned_digits {text : List Char} (digits : text.mapM (toDigit radix) = some values) :
    text.head? ≠ some '+' := by
  intro plus
  obtain ⟨value, digit⟩ := mapM_digits digits '+' (List.mem_of_head? plus)
  have range := toDigit_range digit
  simp at range

/-- A number without a sign. -/
theorem parseUnsigned_unsigned {text : List Char} (unsigned : text.head? ≠ some '+') :
    parseUnsigned radix limit text = if text = [] then none
      else ((text.mapM (toDigit radix)).map (digitsValue radix)).filter (· < limit) := by
  unfold parseUnsigned
  split
  · simp at unsigned
  · dsimp only
    cases text.mapM (toDigit radix) <;> rfl

example : parseUnsigned 10 (2 ^ 16) "8080".toList = some 8080 := by decide
example : parseUnsigned 10 (2 ^ 16) "65536".toList = none := by decide

/-! ## Reading from the end -/

/-- What stands behind the last element that stops the scan. -/
theorem rtakeWhile_append_cons {p : α → Bool} {stop : α} {text : List α} (front : List α)
    (stops : p stop = false) (keeps : ∀ c ∈ text, p c = true) : (front ++ stop :: text).rtakeWhile p = text := by
  have kept : ∀ c ∈ text.reverse, p c = true := by simpa using keeps
  rw [List.rtakeWhile, List.reverse_append, List.reverse_cons, List.append_assoc,
    List.takeWhile_append_of_pos kept, List.singleton_append, List.takeWhile_cons_of_neg (by simp [stops]),
    List.append_nil, List.reverse_reverse]

end SkyDaemon.Text
