import SkyDaemon.Foundation.Text

/-! Request heads of HTTP/1.1 as a server reads them: a request line with an origin-form
target, header fields up to an empty line, and what is left. Nothing but the grammar is
accepted. Segments and query parameters are given as they are once decoded. -/
namespace SkyDaemon

structure HttpRequest where
  method : List UInt8
  segments : List (List UInt8)
  params : List (List UInt8 × List UInt8)
  headers : List (List UInt8 × List UInt8)
  deriving DecidableEq, Repr

namespace HttpRequest

def cr : UInt8 := 13
def lf : UInt8 := 10
def space : UInt8 := 32
def percent : UInt8 := 37
def ampersand : UInt8 := 38
def plus : UInt8 := 43
def slash : UInt8 := 47
def colon : UInt8 := 58
def equals : UInt8 := 61
def question : UInt8 := 63

/-! ## Bytes -/

def letterOrDigit (byte : UInt8) : Bool :=
  (48 ≤ byte && byte ≤ 57) || (65 ≤ byte && byte ≤ 90) || (97 ≤ byte && byte ≤ 122)

/-- What stands for itself in a path segment: letters, digits and `-._~`, `!$&'()*+,;=`, `:@`. -/
def segmentByte (byte : UInt8) : Bool :=
  letterOrDigit byte ||
    [45, 46, 95, 126, 33, 36, 38, 39, 40, 41, 42, 43, 44, 59, 61, 58, 64].contains byte

/-- A query may hold `/` and `?` as well. -/
def queryByte (byte : UInt8) : Bool := segmentByte byte || byte == slash || byte == question

/-- The bytes of a method and of a header's name. -/
def tokenByte (byte : UInt8) : Bool :=
  letterOrDigit byte || [33, 35, 36, 37, 38, 39, 42, 43, 45, 46, 94, 95, 96, 124, 126].contains byte

/-- No control character but the tab. -/
def fieldByte (byte : UInt8) : Bool := byte == 9 || (32 ≤ byte && byte != 127)

def blank (byte : UInt8) : Bool := byte == 9 || byte == space

/-! ## Decoding -/

def hexValue (byte : UInt8) : Option Nat :=
  if 48 ≤ byte ∧ byte ≤ 57 then some (byte.toNat - 48)
  else if 65 ≤ byte ∧ byte ≤ 70 then some (byte.toNat - 55)
  else if 97 ≤ byte ∧ byte ≤ 102 then some (byte.toNat - 87)
  else none

def percentDecode : List UInt8 → Option (List UInt8)
  | [] => some []
  | byte :: rest =>
      if byte = percent then
        match rest with
        | high :: low :: more =>
            match hexValue high, hexValue low with
            | some h, some l => (percentDecode more).map (UInt8.ofNat (h * 16 + l) :: ·)
            | _, _ => none
        | _ => none
      else (percentDecode rest).map (byte :: ·)

/-- In a query `+` is a space. -/
def formDecode (bytes : List UInt8) : Option (List UInt8) :=
  percentDecode (bytes.map fun byte => if byte = plus then space else byte)

theorem percentDecode_cons {byte : UInt8} (other : byte ≠ percent) (rest : List UInt8) :
    percentDecode (byte :: rest) = (percentDecode rest).map (byte :: ·) := by
  rw [percentDecode.eq_def]
  exact if_neg other

/-- Decoding does not lengthen, and keeps the length only where there is nothing to decode. -/
theorem percentDecode_length (decoded : percentDecode bytes = some text) :
    text.length ≤ bytes.length ∧ (text.length = bytes.length → percent ∉ bytes ∧ text = bytes) := by
  induction bytes using percentDecode.induct generalizing text with
  | case1 =>
    cases decoded
    simp
  | case2 high low more h l first second ih =>
    rw [percentDecode, if_pos rfl] at decoded
    simp only [first, second] at decoded
    obtain ⟨inner, found, rfl⟩ := Option.map_eq_some_iff.mp decoded
    have shorter := (ih found).1
    simp only [List.length_cons]
    omega
  | case3 high low more bad =>
    rw [percentDecode.eq_def] at decoded
    dsimp only at decoded
    rw [if_pos rfl] at decoded
    split at decoded
    · rename_i h l first second
      exact absurd second (bad h l first)
    · contradiction
  | case4 rest short =>
    rw [percentDecode.eq_def] at decoded
    dsimp only at decoded
    rw [if_pos rfl] at decoded
    split at decoded
    · rename_i high low more
      exact (short high low more rfl).elim
    · contradiction
  | case5 byte rest other ih =>
    rw [percentDecode_cons other] at decoded
    obtain ⟨inner, found, rfl⟩ := Option.map_eq_some_iff.mp decoded
    obtain ⟨shorter, same⟩ := ih found
    simp only [List.length_cons]
    refine ⟨by omega, fun equal => ?_⟩
    obtain ⟨free, rfl⟩ := same (by omega)
    exact ⟨by simp [free, Ne.symm other], rfl⟩

theorem percentDecode_free (free : percent ∉ bytes) : percentDecode bytes = some bytes := by
  induction bytes with
  | nil => rfl
  | cons byte rest ih =>
    simp only [List.mem_cons, not_or] at free
    rw [percentDecode_cons (Ne.symm free.1), ih free.2]
    rfl

/-! ## Encoding -/

/-- An upper-case hexadecimal digit. -/
def hexDigit (value : Nat) : UInt8 := UInt8.ofNat (if value < 10 then value + 48 else value + 55)

def encodeByte (keep : UInt8 → Bool) (byte : UInt8) : List UInt8 :=
  if keep byte then [byte] else [percent, hexDigit (byte.toNat / 16), hexDigit (byte.toNat % 16)]

/-- Every byte that is not kept becomes a percent triple. -/
def percentEncode (keep : UInt8 → Bool) (bytes : List UInt8) : List UInt8 := bytes.flatMap (encodeByte keep)

theorem hexValue_hexDigit (below : value < 16) : hexValue (hexDigit value) = some value := by
  have table : ∀ value < 16, hexValue (hexDigit value) = some value := by decide
  exact table value below

theorem hexDigit_letterOrDigit (below : value < 16) : letterOrDigit (hexDigit value) = true := by
  have table : ∀ value < 16, letterOrDigit (hexDigit value) = true := by decide
  exact table value below

theorem percentDecode_encode {keep : UInt8 → Bool} (escaped : keep percent = false) (bytes : List UInt8) :
    percentDecode (percentEncode keep bytes) = some bytes := by
  induction bytes with
  | nil => rfl
  | cons byte rest ih =>
    have bound := byte.toNat_lt
    rw [percentEncode, List.flatMap_cons, encodeByte]
    split
    · rename_i kept
      have other : byte ≠ percent := by
        rintro rfl
        rw [kept] at escaped
        contradiction
      rw [List.singleton_append, percentDecode_cons other]
      exact congrArg (Option.map (byte :: ·)) ih
    · have whole : UInt8.ofNat (byte.toNat / 16 * 16 + byte.toNat % 16) = byte := by
        rw [Nat.div_add_mod']
        exact UInt8.ofNat_toNat
      rw [List.cons_append, List.cons_append, List.cons_append, List.nil_append, percentDecode, if_pos rfl,
        hexValue_hexDigit (by omega), hexValue_hexDigit (by omega)]
      dsimp only
      rw [whole]
      exact congrArg (Option.map (byte :: ·)) ih

/-- What holds of the bytes that are kept, of percent signs and of digits holds of the encoding. -/
theorem percentEncode_all {keep test : UInt8 → Bool} {bytes : List UInt8}
    (kept : ∀ byte ∈ bytes, keep byte = true → test byte = true) (sign : test percent = true)
    (digit : ∀ byte, letterOrDigit byte = true → test byte = true) : (percentEncode keep bytes).all test = true := by
  refine List.all_eq_true.mpr fun byte member => ?_
  obtain ⟨source, inside, member⟩ := List.mem_flatMap.mp member
  have bound := source.toNat_lt
  rw [encodeByte] at member
  split at member
  · rename_i own
    cases List.mem_singleton.mp member
    exact kept byte inside own
  · simp only [List.mem_cons, List.not_mem_nil, or_false] at member
    rcases member with rfl | rfl | rfl
    · exact sign
    · exact digit _ (hexDigit_letterOrDigit (by omega))
    · exact digit _ (hexDigit_letterOrDigit (by omega))

/-! ## Cutting at the first separator -/

/-- What stands before the first separator, and what follows it if there is one. -/
def cut (separator : UInt8) : List UInt8 → List UInt8 × Option (List UInt8)
  | [] => ([], none)
  | byte :: rest =>
      if byte = separator then ([], some rest)
      else (byte :: (cut separator rest).1, (cut separator rest).2)

theorem cut_append (free : separator ∉ front) (rest : List UInt8) :
    cut separator (front ++ rest) = (front ++ (cut separator rest).1, (cut separator rest).2) := by
  induction front with
  | nil => rfl
  | cons byte front ih =>
    simp only [List.mem_cons, not_or] at free
    rw [List.cons_append, cut, if_neg (Ne.symm free.1), ih free.2]
    rfl

theorem cut_found (free : separator ∉ front) (rest : List UInt8) :
    cut separator (front ++ separator :: rest) = (front, some rest) := by
  rw [cut_append free, cut, if_pos rfl, List.append_nil]

theorem cut_free (free : separator ∉ bytes) : cut separator bytes = (bytes, none) := by
  have whole := cut_append free []
  rwa [List.append_nil, cut, List.append_nil] at whole

theorem cut_fst (separator : UInt8) (bytes : List UInt8) :
    (cut separator bytes).1 <+: bytes ∧ separator ∉ (cut separator bytes).1 := by
  induction bytes with
  | nil => simp [cut]
  | cons byte rest ih =>
    rw [cut]
    split
    · simp
    · rename_i other
      exact ⟨List.cons_prefix_cons.mpr ⟨rfl, ih.1⟩, by simp [ih.2, Ne.symm other]⟩

/-- A piece that is not shorter than the text before a byte it does not hold is that text. -/
theorem piece_eq {piece text rest : List UInt8} (within : piece <+: text ++ byte :: rest) (free : byte ∉ piece)
    (long : text.length ≤ piece.length) : piece = text := by
  obtain ⟨more, rfl⟩ := List.prefix_of_prefix_length_le (List.prefix_append text (byte :: rest)) within long
  obtain ⟨tail, same⟩ := within
  cases more with
  | nil => exact List.append_nil _
  | cons other more =>
    rw [List.append_assoc] at same
    have first := (List.cons.inj (List.append_cancel_left same)).1
    simp [first] at free

/-! ## Targets -/

def segment (piece : List UInt8) : Option (List UInt8) :=
  if piece.all fun byte => segmentByte byte || byte == percent then percentDecode piece else none

def param (piece : List UInt8) : Option (List UInt8 × List UInt8) :=
  if piece.all fun byte => queryByte byte || byte == percent then do
    let key ← formDecode (cut equals piece).1
    let value ← formDecode ((cut equals piece).2.getD [])
    some (key, value)
  else none

def parseQuery (query : List UInt8) : Option (List (List UInt8 × List UInt8)) :=
  ((query.splitOn ampersand).filter (· ≠ [])).mapM param

/-- The decoded segments and parameters of an origin-form target. -/
def parseTarget : List UInt8 → Option (List (List UInt8) × List (List UInt8 × List UInt8))
  | [] => none
  | byte :: rest =>
      if byte = slash then do
        let segments ← ((cut question rest).1.splitOn slash).mapM segment
        let params ← parseQuery ((cut question rest).2.getD [])
        some (segments, params)
      else none

/-! ## Heads -/

def httpVersion : List UInt8 := Text.bytes "HTTP/1.1"

def readLine (bytes : List UInt8) : Option (List UInt8 × List UInt8) :=
  match cut cr bytes with
  | (line, some (byte :: rest)) => if byte = lf then some (line, rest) else none
  | _ => none

/-- The method and the target. -/
def parseRequestLine (line : List UInt8) : Option (List UInt8 × List UInt8) :=
  match cut space line with
  | (method, some more) =>
      if method ≠ [] ∧ method.all tokenByte ∧ (cut space more).2 = some httpVersion then
        some (method, (cut space more).1)
      else none
  | _ => none

def parseField (line : List UInt8) : Option (List UInt8 × List UInt8) :=
  match cut colon line with
  | (name, some value) =>
      if name ≠ [] ∧ name.all tokenByte ∧ value.all fieldByte then
        some (name, (value.dropWhile blank).rdropWhile blank)
      else none
  | _ => none

/-- The header fields up to the empty line, and what follows it. -/
def parseFields : Nat → List UInt8 → Option (List (List UInt8 × List UInt8) × List UInt8)
  | 0, _ => none
  | fuel + 1, bytes => do
      let (line, rest) ← readLine bytes
      if line = [] then some ([], rest)
      else do
        let field ← parseField line
        let (more, rest) ← parseFields fuel rest
        some (field :: more, rest)

/-- One request head and the bytes behind it. Every line takes at least two bytes, so
their number is fuel enough. -/
def parse (bytes : List UInt8) : Option (HttpRequest × List UInt8) := do
  let (line, rest) ← readLine bytes
  let (method, target) ← parseRequestLine line
  let (segments, params) ← parseTarget target
  let (headers, rest) ← parseFields rest.length rest
  some (⟨method, segments, params, headers⟩, rest)

/-! ## Pieces -/

theorem cut_cases (separator : UInt8) (bytes : List UInt8) :
    (separator ∉ bytes ∧ cut separator bytes = (bytes, none)) ∨
      ∃ front rest, bytes = front ++ separator :: rest ∧ separator ∉ front ∧
        cut separator bytes = (front, some rest) := by
  by_cases member : separator ∈ bytes
  · obtain ⟨front, rest, rfl, free⟩ := List.eq_append_cons_of_mem member
    exact .inr ⟨front, rest, rfl, free, cut_found free rest⟩
  · exact .inl ⟨member, cut_free member⟩

theorem splitOn_head (separator : UInt8) (bytes : List UInt8) :
    ∃ more, bytes.splitOn separator = (cut separator bytes).1 :: more := by
  rcases cut_cases separator bytes with ⟨free, same⟩ | ⟨front, rest, rfl, free, same⟩
  · exact ⟨[], by rw [same, List.splitOn_eq_singleton free]⟩
  · exact ⟨rest.splitOn separator, by rw [same, List.splitOn_append_cons_self_of_not_mem free]⟩

theorem splitOn_mem {bytes piece : List UInt8} (member : piece ∈ bytes.splitOn separator) : separator ∉ piece := by
  induction length : bytes.length using Nat.strongRecOn generalizing bytes with
  | ind n ih =>
    rcases cut_cases separator bytes with ⟨free, -⟩ | ⟨front, rest, rfl, free, -⟩
    · rw [List.splitOn_eq_singleton free, List.mem_singleton] at member
      exact member ▸ free
    · rw [List.splitOn_append_cons_self_of_not_mem free, List.mem_cons] at member
      rcases member with rfl | member
      · exact free
      · refine ih rest.length ?_ member rfl
        simp only [List.length_append, List.length_cons] at length
        omega

theorem flatMap_splitOn (separator : UInt8) (bytes : List UInt8) :
    (bytes.splitOn separator).flatMap (separator :: ·) = separator :: bytes := by
  induction length : bytes.length using Nat.strongRecOn generalizing bytes with
  | ind n ih =>
    rcases cut_cases separator bytes with ⟨free, -⟩ | ⟨front, rest, rfl, free, -⟩
    · rw [List.splitOn_eq_singleton free, List.flatMap_singleton]
    · have shorter : rest.length < n := by
        simp only [List.length_append, List.length_cons] at length
        omega
      rw [List.splitOn_append_cons_self_of_not_mem free, List.flatMap_cons, ih rest.length shorter rest rfl]
      rfl

/-! ## What a request that was read tells of its bytes -/

/-- The target that is read off what follows the method: all of a front without line breaks and
spaces, and of the rest what comes before the first of them. -/
def uncut (bytes : List UInt8) : List UInt8 := (cut space (cut cr bytes).1).1

theorem uncut_append (unbroken : cr ∉ front) (single : space ∉ front) (rest : List UInt8) :
    uncut (front ++ rest) = front ++ uncut rest := by
  rw [uncut, cut_append unbroken, cut_append single]
  rfl

theorem uncut_spec (bytes : List UInt8) : uncut bytes <+: bytes ∧ space ∉ uncut bytes :=
  ⟨(cut_fst space _).1.trans (cut_fst cr _).1, (cut_fst space _).2⟩

theorem parse_target {method rest : List UInt8} (parsed : parse (method ++ space :: rest) = some (request, left))
    (unbroken : cr ∉ method) (single : space ∉ method) :
    parseTarget (uncut rest) = some (request.segments, request.params) := by
  obtain ⟨⟨line, more⟩, lined, parsed⟩ := Option.bind_eq_some_iff.mp parsed
  obtain ⟨⟨method', target⟩, started, parsed⟩ := Option.bind_eq_some_iff.mp parsed
  obtain ⟨⟨segments, params⟩, targeted, parsed⟩ := Option.bind_eq_some_iff.mp parsed
  obtain ⟨⟨headers, left'⟩, -, parsed⟩ := Option.bind_eq_some_iff.mp parsed
  cases parsed
  have free : cr ∉ method ++ [space] := List.not_mem_append unbroken (by decide)
  rw [readLine, List.append_cons, cut_append free] at lined
  split at lined
  · rename_i found
    split at lined
    · cases lined
      cases (Prod.mk.inj found).1
      rw [parseRequestLine, List.append_assoc, List.singleton_append, cut_found single] at started
      dsimp only at started
      split at started
      · cases started
        exact targeted
      · contradiction
    · contradiction
  · contradiction

/-- The piece behind a fixed part of the path. -/
theorem parseTarget_segment {front rest : List UInt8} {segments before : List (List UInt8)}
    {params : List (List UInt8 × List UInt8)}
    (parsed : parseTarget (slash :: (front ++ slash :: rest)) = some (segments, params))
    (free : question ∉ front) (known : (front.splitOn slash).mapM segment = some before) :
    ∃ decoded more, segments = before ++ decoded :: more ∧
      segment (cut slash (cut question rest).1).1 = some decoded := by
  have free' : question ∉ front ++ [slash] := List.not_mem_append free (by decide)
  rw [parseTarget, if_pos rfl, List.append_cons, cut_append free'] at parsed
  obtain ⟨found, split, parsed⟩ := Option.bind_eq_some_iff.mp parsed
  obtain ⟨params', -, parsed⟩ := Option.bind_eq_some_iff.mp parsed
  cases parsed
  obtain ⟨more, head⟩ := splitOn_head slash (cut question rest).1
  rw [List.append_assoc, List.singleton_append, List.splitOn_append_cons_self, head, List.mapM_append, known] at split
  obtain ⟨others, tail, split⟩ := Option.bind_eq_some_iff.mp split
  cases tail
  obtain ⟨others, tail, split⟩ := Option.bind_eq_some_iff.mp split
  rw [List.mapM_cons] at tail
  obtain ⟨decoded, own, tail⟩ := Option.bind_eq_some_iff.mp tail
  obtain ⟨rest', -, tail⟩ := Option.bind_eq_some_iff.mp tail
  cases tail
  cases split
  exact ⟨decoded, rest', rfl, own⟩

/-- The value behind a fixed path and the first key of the query. -/
theorem parseTarget_value {path key rest : List UInt8} {segments : List (List UInt8)}
    {params : List (List UInt8 × List UInt8)}
    (parsed : parseTarget (slash :: (path ++ question :: (key ++ equals :: rest))) = some (segments, params))
    (free : question ∉ path) (single : ampersand ∉ key) (bare : equals ∉ key) :
    ∃ name value more, params = (name, value) :: more ∧
      ((cut ampersand rest).1.all fun byte => queryByte byte || byte == percent) = true ∧
      formDecode (cut ampersand rest).1 = some value := by
  rw [parseTarget, if_pos rfl, cut_found free] at parsed
  obtain ⟨found, -, parsed⟩ := Option.bind_eq_some_iff.mp parsed
  obtain ⟨params', queried, parsed⟩ := Option.bind_eq_some_iff.mp parsed
  cases parsed
  obtain ⟨more, head⟩ := splitOn_head ampersand (key ++ equals :: rest)
  have single' : ampersand ∉ key ++ [equals] := List.not_mem_append single (by decide)
  have piece : (cut ampersand (key ++ equals :: rest)).1 = key ++ equals :: (cut ampersand rest).1 := by
    rw [List.append_cons, cut_append single', List.append_assoc]
    rfl
  rw [Option.getD_some, parseQuery, head, piece, List.filter_cons_of_pos (by simp), List.mapM_cons] at queried
  obtain ⟨⟨name, value⟩, own, queried⟩ := Option.bind_eq_some_iff.mp queried
  obtain ⟨others, -, queried⟩ := Option.bind_eq_some_iff.mp queried
  cases queried
  rw [param] at own
  split at own
  · rename_i valid
    rw [cut_found bare] at own
    obtain ⟨name', -, own⟩ := Option.bind_eq_some_iff.mp own
    obtain ⟨value', decoded, own⟩ := Option.bind_eq_some_iff.mp own
    cases own
    rw [List.all_append, Bool.and_eq_true, List.all_cons, Bool.and_eq_true] at valid
    exact ⟨_, _, _, rfl, valid.2.2, decoded⟩
  · contradiction

/-! ## Requests that are written -/

def field (header : List UInt8 × List UInt8) : List UInt8 :=
  header.1 ++ colon :: space :: (header.2 ++ [cr, lf])

/-- A request head as it is written. -/
def render (method target : List UInt8) (headers : List (List UInt8 × List UInt8)) : List UInt8 :=
  method ++ space :: (target ++ space :: (httpVersion ++ cr :: lf :: (headers.flatMap field ++ [cr, lf])))

/-- A header that is read as it is written. -/
structure CleanHeader (header : List UInt8 × List UInt8) : Prop where
  named : header.1 ≠ []
  token : header.1.all tokenByte = true
  value : header.2.all fieldByte = true
  start : ∀ byte, header.2.head? = some byte → blank byte = false
  ends : ∀ byte, header.2.getLast? = some byte → blank byte = false

theorem not_mem_of_all {bytes : List UInt8} {test : UInt8 → Bool} (all : bytes.all test = true)
    (other : test byte = false) :
    byte ∉ bytes := by
  intro member
  rw [List.all_eq_true.mp all byte member] at other
  contradiction

theorem readLine_render (free : cr ∉ line) (rest : List UInt8) :
    readLine (line ++ cr :: lf :: rest) = some (line, rest) := by
  rw [readLine, cut_found free]
  exact if_pos rfl

theorem parseField_render (clean : CleanHeader (name, value)) :
    parseField (name ++ colon :: space :: value) = some (name, value) := by
  rw [parseField, cut_found (not_mem_of_all clean.token (by decide))]
  have allowed : (space :: value).all fieldByte = true := by
    rw [List.all_cons, show fieldByte space = true by decide]
    exact clean.value
  dsimp only
  rw [if_pos ⟨clean.named, clean.token, allowed⟩, List.dropWhile_cons_of_pos (by decide)]
  congr 2
  have front : value.dropWhile blank = value := by
    cases value with
    | nil => rfl
    | cons byte rest => exact List.dropWhile_cons_of_neg (by rw [clean.start byte rfl]; exact Bool.false_ne_true)
  rw [front, List.rdropWhile_eq_self_iff]
  intro nonempty
  rw [clean.ends _ (List.getLast?_eq_some_getLast nonempty)]
  exact Bool.false_ne_true

theorem parseFields_render {headers : List (List UInt8 × List UInt8)} (clean : ∀ header ∈ headers, CleanHeader header)
    (rest : List UInt8) {fuel : Nat} (enough : headers.length < fuel) :
    parseFields fuel (headers.flatMap field ++ cr :: lf :: rest) = some (headers, rest) := by
  induction headers generalizing fuel with
  | nil =>
    obtain ⟨fuel, rfl⟩ : ∃ less, fuel = less + 1 := ⟨fuel - 1, by omega⟩
    rw [parseFields, List.flatMap_nil, readLine_render (by simp)]
    rfl
  | cons header headers ih =>
    obtain ⟨fuel, rfl⟩ : ∃ less, fuel = less + 1 := ⟨fuel - 1, by omega⟩
    have own := clean header List.mem_cons_self
    have free : cr ∉ header.1 ++ colon :: space :: header.2 := by
      refine List.not_mem_append (not_mem_of_all own.token (by decide)) ?_
      simp only [List.mem_cons, not_or]
      exact ⟨by decide, by decide, not_mem_of_all own.value (by decide)⟩
    have line : (header :: headers).flatMap field ++ cr :: lf :: rest =
        (header.1 ++ colon :: space :: header.2) ++ cr :: lf :: (headers.flatMap field ++ cr :: lf :: rest) := by
      simp [field]
    have more := ih (fun other member => clean other (List.mem_cons_of_mem _ member))
      (Nat.lt_of_succ_lt_succ enough)
    rw [parseFields, line, readLine_render free]
    change (if header.1 ++ colon :: space :: header.2 = [] then _ else _) = _
    rw [if_neg (by simp), parseField_render own]
    change (parseFields fuel _ >>= _) = _
    rw [more]
    rfl

/-- A target as it is written, from pieces that are encoded already. -/
def target (pieces : List (List UInt8)) (query : Option (List UInt8)) : List UInt8 :=
  pieces.flatMap (slash :: ·) ++ (query.map (question :: ·)).getD []

theorem unspaced_map {bytes : List UInt8} (single : plus ∉ bytes) :
    (bytes.map fun byte => if byte = plus then space else byte) = bytes := by
  refine (List.map_congr_left fun byte member => ?_).trans (List.map_id _)
  exact if_neg fun equal : byte = plus => single (equal ▸ member)

theorem formDecode_plain (free : percent ∉ bytes) (single : plus ∉ bytes) : formDecode bytes = some bytes := by
  rw [formDecode, unspaced_map single]
  exact percentDecode_free free

section Encoded
variable {keep : UInt8 → Bool} (escaped : keep percent = false)
include escaped

theorem formDecode_encode (single : keep plus = false) (bytes : List UInt8) :
    formDecode (percentEncode keep bytes) = some bytes := by
  have free : plus ∉ percentEncode keep bytes := by
    have all : (percentEncode keep bytes).all (· != plus) = true := by
      refine percentEncode_all (fun byte _ kept => ?_) (by decide) fun byte digit => ?_
      · exact bne_iff_ne.mpr fun same => by rw [same, single] at kept; contradiction
      · exact bne_iff_ne.mpr fun same => by rw [same] at digit; contradiction
    exact not_mem_of_all all (by decide)
  rw [formDecode, unspaced_map free]
  exact percentDecode_encode escaped bytes

theorem segment_encode {piece : List UInt8} (allowed : ∀ byte ∈ piece, keep byte = true → segmentByte byte = true) :
    segment (percentEncode keep piece) = some piece := by
  have valid : ((percentEncode keep piece).all fun byte => segmentByte byte || byte == percent) = true := by
    refine percentEncode_all (fun byte member kept => ?_) (by decide) fun byte digit => ?_
    · rw [allowed byte member kept]
      rfl
    · rw [segmentByte, digit]
      rfl
  rw [segment, if_pos valid]
  exact percentDecode_encode escaped piece

theorem mapM_encode {pieces : List (List UInt8)}
    (allowed : ∀ piece ∈ pieces, ∀ byte ∈ piece, keep byte = true → segmentByte byte = true) :
    (pieces.map (percentEncode keep)).mapM segment = some pieces := by
  induction pieces with
  | nil => rfl
  | cons piece pieces ih =>
    rw [List.map_cons, List.mapM_cons, segment_encode escaped (allowed piece List.mem_cons_self),
      ih fun other member => allowed other (List.mem_cons_of_mem _ member)]
    rfl

end Encoded

/-- A separator that is kept splits the encoding where it splits the text. -/
theorem flatMap_encode {keep : UInt8 → Bool} (kept : keep separator = true) (bytes : List UInt8) :
    ((bytes.splitOn separator).map (percentEncode keep)).flatMap (separator :: ·) =
      separator :: percentEncode keep bytes := by
  have own : encodeByte keep separator = [separator] := if_pos kept
  have whole := congrArg (percentEncode keep) (flatMap_splitOn separator bytes)
  rw [percentEncode, List.flatMap_assoc, percentEncode, List.flatMap_cons, own] at whole
  rw [List.flatMap_map]
  refine Eq.trans (List.flatMap_congr fun piece _ => ?_) whole
  rw [List.flatMap_cons, own]
  rfl

/-- What stands for itself in the value of a parameter. -/
def valueByte (byte : UInt8) : Bool := queryByte byte && byte != ampersand && byte != plus

theorem parseQuery_single {piece : List UInt8} (nonempty : piece ≠ []) (single : ampersand ∉ piece)
    (own : param piece = some decoded) : parseQuery piece = some [decoded] := by
  rw [parseQuery, List.splitOn_eq_singleton single, List.filter_cons_of_pos (by simpa using nonempty), List.filter_nil,
    List.mapM_cons, own]
  rfl

theorem parseQuery_append {piece rest : List UInt8} (nonempty : piece ≠ []) (single : ampersand ∉ piece)
    (own : param piece = some decoded) (others : parseQuery rest = some more) :
    parseQuery (piece ++ ampersand :: rest) = some (decoded :: more) := by
  rw [parseQuery, List.splitOn_append_cons_self_of_not_mem single,
    List.filter_cons_of_pos (by simpa using nonempty), List.mapM_cons, own]
  rw [parseQuery] at others
  rw [others]
  rfl

section Param
variable {key value text : List UInt8} (plain : (key.all fun byte => valueByte byte && byte != equals) = true)
  (escaped : (value.all fun byte => valueByte byte || byte == percent) = true)
include plain escaped

theorem param_single : ampersand ∉ key ++ equals :: value := by
  refine List.not_mem_append (not_mem_of_all plain (by decide)) ?_
  rw [List.mem_cons, not_or]
  exact ⟨by decide, not_mem_of_all escaped (by decide)⟩

theorem param_valid : ((key ++ equals :: value).all fun byte => queryByte byte || byte == percent) = true := by
  have query {byte : UInt8} (own : valueByte byte = true) : queryByte byte = true :=
    ((Bool.and_eq_true _ _).mp ((Bool.and_eq_true _ _).mp own).1).1
  rw [List.all_append, List.all_cons, Bool.and_eq_true, Bool.and_eq_true]
  refine ⟨List.all_eq_true.mpr fun byte member => ?_, by decide, List.all_eq_true.mpr fun byte member => ?_⟩
  · rw [query ((Bool.and_eq_true _ _).mp (List.all_eq_true.mp plain byte member)).1]
    rfl
  · rcases (Bool.or_eq_true _ _).mp (List.all_eq_true.mp escaped byte member) with own | sign
    · rw [query own]
      rfl
    · rw [sign, Bool.or_true]

theorem param_escaped (decoded : formDecode value = some text) : param (key ++ equals :: value) = some (key, text) := by
  have named : formDecode key = some key :=
    formDecode_plain (not_mem_of_all plain (by decide)) (not_mem_of_all plain (by decide))
  rw [param, if_pos (param_valid plain escaped), cut_found (not_mem_of_all plain (by decide))]
  dsimp only
  rw [named, Option.getD_some, decoded]
  rfl

end Param

theorem segment_valid (decoded : segment piece = some text) :
    (piece.all fun byte => segmentByte byte || byte == percent) = true := by
  rw [segment] at decoded
  split at decoded
  · assumption
  · contradiction

theorem segment_plain (plain : piece.all segmentByte = true) : segment piece = some piece := by
  have valid : (piece.all fun byte => segmentByte byte || byte == percent) = true :=
    List.all_eq_true.mpr fun byte member => by rw [List.all_eq_true.mp plain byte member]; rfl
  rw [segment, if_pos valid]
  exact percentDecode_free (not_mem_of_all plain (by decide))

theorem splitOn_pieces {first : List UInt8} {others : List (List UInt8)}
    (free : ∀ piece ∈ first :: others, slash ∉ piece) :
    (first ++ others.flatMap (slash :: ·)).splitOn slash = first :: others := by
  induction others generalizing first with
  | nil =>
    rw [List.flatMap_nil, List.append_nil]
    exact List.splitOn_eq_singleton (free first List.mem_cons_self)
  | cons next others ih =>
    rw [List.flatMap_cons, List.cons_append, List.splitOn_append_cons_self_of_not_mem (free first List.mem_cons_self),
      ih fun piece member => free piece (List.mem_cons_of_mem _ member)]

theorem not_mem_flatMap {pieces : List (List UInt8)} (free : ∀ piece ∈ pieces, byte ∉ piece) (away : byte ≠ slash) :
    byte ∉ pieces.flatMap (slash :: ·) := by
  intro member
  obtain ⟨piece, inside, member⟩ := List.mem_flatMap.mp member
  rcases List.mem_cons.mp member with same | member
  · exact away same
  · exact free piece inside member

theorem not_mem_joined {first : List UInt8} {others : List (List UInt8)}
    (free : ∀ piece ∈ first :: others, byte ∉ piece) (away : byte ≠ slash) :
    byte ∉ first ++ others.flatMap (slash :: ·) :=
  List.not_mem_append (free first List.mem_cons_self)
    (not_mem_flatMap (fun piece inside => free piece (List.mem_cons_of_mem _ inside)) away)

section Render
variable {pieces segments : List (List UInt8)} {query : Option (List UInt8)}
  {params headers : List (List UInt8 × List UInt8)} (known : pieces.mapM segment = some segments)
include known

theorem pieces_valid : ∀ piece ∈ pieces, (piece.all fun byte => segmentByte byte || byte == percent) = true := by
  induction pieces generalizing segments with
  | nil => simp
  | cons first pieces ih =>
    rw [List.mapM_cons] at known
    obtain ⟨text, own, known⟩ := Option.bind_eq_some_iff.mp known
    obtain ⟨texts, others, -⟩ := Option.bind_eq_some_iff.mp known
    intro piece member
    rcases List.mem_cons.mp member with rfl | later
    · exact segment_valid own
    · exact ih others piece later

theorem not_mem_pieces (other : (segmentByte byte || byte == percent) = false) : ∀ piece ∈ pieces, byte ∉ piece :=
  fun piece member => not_mem_of_all (pieces_valid known piece member) other

theorem not_mem_target (other : (queryByte byte || byte == percent) = false) (away : byte ≠ slash)
    (away' : byte ≠ question) (valid : ((query.getD []).all fun byte => queryByte byte || byte == percent) = true) :
    byte ∉ target pieces query := by
  have other' : (segmentByte byte || byte == percent) = false := by
    rw [queryByte] at other
    simp only [Bool.or_eq_false_iff] at other ⊢
    exact ⟨other.1.1.1, other.2⟩
  refine List.not_mem_append (not_mem_flatMap (not_mem_pieces known other') away) ?_
  cases query with
  | none => simp
  | some query =>
    simp only [Option.map_some, Option.getD_some, List.mem_cons, not_or]
    exact ⟨away', not_mem_of_all valid other⟩

theorem parseTarget_render (nonempty : pieces ≠ []) (queried : parseQuery (query.getD []) = some params) :
    parseTarget (target pieces query) = some (segments, params) := by
  cases pieces with
  | nil => contradiction
  | cons first others =>
    have path : question ∉ first ++ others.flatMap (slash :: ·) :=
      not_mem_joined (not_mem_pieces known (by decide)) (by decide)
    have split : cut question (first ++ others.flatMap (slash :: ·) ++ (query.map (question :: ·)).getD []) =
        (first ++ others.flatMap (slash :: ·), query) := by
      cases query with
      | none =>
        rw [Option.map_none, Option.getD_none, List.append_nil]
        exact cut_free path
      | some query => exact cut_found path query
    rw [target, List.flatMap_cons, List.cons_append, List.cons_append, parseTarget, if_pos rfl, split]
    dsimp only
    rw [splitOn_pieces (not_mem_pieces known (by decide)), known, queried]
    rfl

/-- What is written in this way is read as one request with nothing behind it. -/
theorem parse_render {method : List UInt8} (named : method ≠ []) (token : method.all tokenByte = true)
    (nonempty : pieces ≠ []) (queried : parseQuery (query.getD []) = some params)
    (valid : ((query.getD []).all fun byte => queryByte byte || byte == percent) = true)
    (clean : ∀ header ∈ headers, CleanHeader header) :
    parse (render method (target pieces query) headers) = some (⟨method, segments, params, headers⟩, []) := by
  have unspaced : space ∉ method := not_mem_of_all token (by decide)
  have single : space ∉ target pieces query := not_mem_target known (by decide) (by decide) (by decide) valid
  have unbroken : cr ∉ target pieces query := not_mem_target known (by decide) (by decide) (by decide) valid
  have line : cr ∉ method ++ space :: (target pieces query ++ space :: httpVersion) := by
    refine List.not_mem_append (not_mem_of_all token (by decide)) ?_
    rw [List.mem_cons, not_or]
    exact ⟨by decide, List.not_mem_append unbroken (by decide +kernel)⟩
  have shape : render method (target pieces query) headers =
      (method ++ space :: (target pieces query ++ space :: httpVersion)) ++
        cr :: lf :: (headers.flatMap field ++ [cr, lf]) := by
    simp [render]
  have started : parseRequestLine (method ++ space :: (target pieces query ++ space :: httpVersion)) =
      some (method, target pieces query) := by
    rw [parseRequestLine, cut_found unspaced]
    dsimp only
    rw [cut_found single, if_pos ⟨named, token, rfl⟩]
  have enough (headers : List (List UInt8 × List UInt8)) :
      headers.length < (headers.flatMap field ++ [cr, lf]).length := by
    induction headers with
    | nil => simp
    | cons header headers ih =>
      simp only [List.flatMap_cons, List.length_append, List.length_cons, field] at ih ⊢
      omega
  rw [parse, shape, readLine_render line]
  change (parseRequestLine _ >>= _) = _
  rw [started]
  change (parseTarget _ >>= _) = _
  rw [parseTarget_render known nonempty queried]
  change (parseFields _ _ >>= _) = _
  rw [parseFields_render clean [] (enough headers)]
  rfl

example : parse (Text.bytes "GET /a%20b/c?x=1&y=+ HTTP/1.1\r\nHost: h\r\n\r\n") =
    some (⟨Text.bytes "GET", [Text.bytes "a b", Text.bytes "c"],
      [(Text.bytes "x", Text.bytes "1"), (Text.bytes "y", Text.bytes " ")],
      [(Text.bytes "Host", Text.bytes "h")]⟩, []) := by decide +kernel

end Render

/-! ## Text in a request

A text is put into a target as it is. It is read back as one segment, or as one value, exactly
if each of its bytes stands for itself there. -/

theorem segment_own {piece text : List UInt8} (decoded : segment piece = some text)
    (within : piece <+: text ++ byte :: rest) (free : byte ∉ piece) : text.all segmentByte = true := by
  have valid := segment_valid decoded
  rw [segment, if_pos valid] at decoded
  obtain ⟨long, same⟩ := percentDecode_length decoded
  cases piece_eq within free long
  obtain ⟨unescaped, -⟩ := same rfl
  refine List.all_eq_true.mpr fun byte member => ?_
  have other : byte ≠ percent := fun equal => unescaped (equal ▸ member)
  simpa [other] using List.all_eq_true.mp valid byte member

theorem value_own {piece text : List UInt8} (decoded : formDecode piece = some text)
    (valid : (piece.all fun byte => queryByte byte || byte == percent) = true) (single : ampersand ∉ piece)
    (within : piece <+: text ++ byte :: rest) (free : byte ∉ piece) : text.all valueByte = true := by
  obtain ⟨long, same⟩ := percentDecode_length decoded
  rw [List.length_map] at long same
  cases piece_eq within free long
  obtain ⟨unescaped, unchanged⟩ := same rfl
  refine List.all_eq_true.mpr fun byte member => ?_
  have kept : (if byte = plus then space else byte) = byte := by
    have fixed := List.map_eq_map_iff.mp (unchanged.symm.trans (List.map_id _).symm)
    exact fixed byte member
  have unspaced : byte ≠ plus := by
    rintro rfl
    exact absurd kept (by decide)
  have other : byte ≠ percent := by
    rintro rfl
    exact unescaped (unchanged ▸ member)
  have apart : byte ≠ ampersand := fun equal => single (equal ▸ member)
  have query : queryByte byte = true := by simpa [other] using List.all_eq_true.mp valid byte member
  simp [valueByte, query, unspaced, apart]

theorem mapM_plain {pieces : List (List UInt8)} (plain : ∀ piece ∈ pieces, piece.all segmentByte = true) :
    pieces.mapM segment = some pieces := by
  induction pieces with
  | nil => rfl
  | cons piece pieces ih =>
    rw [List.mapM_cons, segment_plain (plain piece List.mem_cons_self),
      ih fun other member => plain other (List.mem_cons_of_mem _ member)]
    rfl

section Text
variable {method : List UInt8} {params headers : List (List UInt8 × List UInt8)} {query : Option (List UInt8)}
  (named : method ≠ []) (token : method.all tokenByte = true) (clean : ∀ header ∈ headers, CleanHeader header)
include named token clean

theorem parse_segment_iff {first : List UInt8} {others after : List (List UInt8)}
    (plain : ∀ piece ∈ first :: others, piece.all segmentByte = true)
    (plain' : ∀ piece ∈ after, piece.all segmentByte = true) (queried : parseQuery (query.getD []) = some params)
    (valid : ((query.getD []).all fun byte => queryByte byte || byte == percent) = true) (text : List UInt8) :
    parse (render method (target (first :: others ++ text :: after) query) headers) =
        some (⟨method, first :: others ++ text :: after, params, headers⟩, []) ↔
      text.all segmentByte = true := by
  constructor
  · intro parsed
    have known := mapM_plain plain
    have free {byte : UInt8} (other : (segmentByte byte || byte == percent) = false) (away : byte ≠ slash) :
        byte ∉ first ++ others.flatMap (slash :: ·) := not_mem_joined (not_mem_pieces known other) away
    have shape : render method (target (first :: others ++ text :: after) query) headers =
        method ++ space :: ((slash :: (first ++ others.flatMap (slash :: ·) ++ [slash])) ++
          (text ++ (after.flatMap (slash :: ·) ++ ((query.map (question :: ·)).getD [] ++
            space :: (httpVersion ++ cr :: lf :: (headers.flatMap field ++ [cr, lf])))))) := by
      simp [render, target]
    rw [shape] at parsed
    generalize ends : after.flatMap (slash :: ·) ++ ((query.map (question :: ·)).getD [] ++
      space :: (httpVersion ++ cr :: lf :: (headers.flatMap field ++ [cr, lf]))) = tail at parsed
    obtain ⟨byte, more, rfl, separator⟩ : ∃ byte more, tail = byte :: more ∧ byte ∈ [slash, question, space] := by
      cases after with
      | cons piece after => exact ⟨slash, _, ends.symm, by simp⟩
      | nil =>
        cases query with
        | some query => exact ⟨question, _, ends.symm, by simp⟩
        | none => exact ⟨space, _, ends.symm, by simp⟩
    have targeted := parse_target parsed (not_mem_of_all token (by decide)) (not_mem_of_all token (by decide))
    have front {byte : UInt8} (other : (segmentByte byte || byte == percent) = false) (away : byte ≠ slash) :
        byte ∉ slash :: (first ++ others.flatMap (slash :: ·) ++ [slash]) := by
      rw [List.mem_cons, not_or]
      exact ⟨away, List.not_mem_append (free other away) (by simpa using away)⟩
    rw [uncut_append (front (by decide) (by decide)) (front (by decide) (by decide)), List.cons_append,
      List.append_assoc, List.singleton_append] at targeted
    obtain ⟨decoded, others', same, own⟩ := parseTarget_segment targeted (free (by decide) (by decide))
      (by rw [splitOn_pieces (not_mem_pieces known (by decide)), known])
    cases (List.cons.inj (List.append_cancel_left same)).1
    obtain ⟨inner, unspaced⟩ := uncut_spec (text ++ byte :: more)
    obtain ⟨outside, unasked⟩ := cut_fst question (uncut (text ++ byte :: more))
    obtain ⟨within, unslashed⟩ := cut_fst slash (cut question (uncut (text ++ byte :: more))).1
    refine segment_own own ((within.trans outside).trans inner) fun member => ?_
    simp only [List.mem_cons, List.not_mem_nil, or_false] at separator
    rcases separator with rfl | rfl | rfl
    · exact unslashed member
    · exact unasked (within.subset member)
    · exact unspaced ((within.trans outside).subset member)
  · intro safe
    refine parse_render (mapM_plain fun piece member => ?_) named token (by simp) queried valid clean
    rcases List.mem_append.mp member with front | back
    · exact plain piece front
    · rcases List.mem_cons.mp back with rfl | back
      · exact safe
      · exact plain' piece back

theorem parse_value_iff {first key : List UInt8} {others : List (List UInt8)}
    (plain : ∀ piece ∈ first :: others, piece.all segmentByte = true)
    (plain' : (key.all fun byte => valueByte byte && byte != equals) = true) (text : List UInt8) :
    parse (render method (target (first :: others) (some (key ++ equals :: text))) headers) =
        some (⟨method, first :: others, [(key, text)], headers⟩, []) ↔
      text.all valueByte = true := by
  have known := mapM_plain plain
  have absent {byte : UInt8} (other : (valueByte byte && byte != equals) = false) : byte ∉ key :=
    not_mem_of_all plain' other
  constructor
  · intro parsed
    have free {byte : UInt8} (other : (segmentByte byte || byte == percent) = false) (away : byte ≠ slash) :
        byte ∉ first ++ others.flatMap (slash :: ·) := not_mem_joined (not_mem_pieces known other) away
    have shape : render method (target (first :: others) (some (key ++ equals :: text))) headers =
        method ++ space :: ((slash :: (first ++ others.flatMap (slash :: ·) ++ question :: (key ++ [equals]))) ++
          (text ++ space :: (httpVersion ++ cr :: lf :: (headers.flatMap field ++ [cr, lf])))) := by
      simp [render, target]
    rw [shape] at parsed
    generalize httpVersion ++ cr :: lf :: (headers.flatMap field ++ [cr, lf]) = tail at parsed
    have targeted := parse_target parsed (not_mem_of_all token (by decide)) (not_mem_of_all token (by decide))
    have front {byte : UInt8} (other : (segmentByte byte || byte == percent) = false) (away : byte ≠ slash)
        (away' : byte ≠ question) (other' : (valueByte byte && byte != equals) = false) (away'' : byte ≠ equals) :
        byte ∉ slash :: (first ++ others.flatMap (slash :: ·) ++ question :: (key ++ [equals])) := by
      rw [List.mem_cons, not_or]
      refine ⟨away, List.not_mem_append (free other away) ?_⟩
      rw [List.mem_cons, not_or]
      exact ⟨away', List.not_mem_append (absent other') (by simpa using away'')⟩
    rw [uncut_append (front (by decide) (by decide) (by decide) (by decide) (by decide))
      (front (by decide) (by decide) (by decide) (by decide) (by decide)), List.cons_append,
      List.append_assoc (first ++ _), List.cons_append, List.append_assoc key, List.singleton_append] at targeted
    obtain ⟨name, value, more, same, valid, own⟩ := parseTarget_value targeted (free (by decide) (by decide))
      (absent (by decide)) (absent (by decide))
    cases same
    obtain ⟨inner, unspaced⟩ := uncut_spec (text ++ space :: tail)
    obtain ⟨within, single⟩ := cut_fst ampersand (uncut (text ++ space :: tail))
    exact value_own own valid single (within.trans inner) fun member => unspaced (within.subset member)
  · intro safe
    have escaped : (text.all fun byte => valueByte byte || byte == percent) = true :=
      List.all_eq_true.mpr fun byte member => by rw [List.all_eq_true.mp safe byte member]; rfl
    have own := param_escaped plain' escaped
      (formDecode_plain (not_mem_of_all safe (by decide)) (not_mem_of_all safe (by decide)))
    exact parse_render known named token (by simp)
      (parseQuery_single (by simp) (param_single plain' escaped) own) (param_valid plain' escaped) clean

end Text
end HttpRequest
end SkyDaemon
