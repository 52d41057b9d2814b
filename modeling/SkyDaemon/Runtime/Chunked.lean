import SkyDaemon.Runtime.Http

/-! Chunked bodies: what `dechunk` makes of an encoding and of every part of one, that it stays
inside its input, and which inputs it accepts. -/
namespace SkyDaemon.Runtime

/-! ## Lines -/

def crlf : List UInt8 := [cr, lf]

theorem findCrlf_line {line : List UInt8} (single : ¬ crlf <:+: line) (rest : List UInt8) :
    findCrlf (line ++ cr :: lf :: rest) = some line.length := by
  induction line with
  | nil => simp [findCrlf]
  | cons byte line ih =>
    rw [crlf, List.infix_cons_iff, not_or] at single
    have notHere : ¬ [cr, lf] <+: byte :: (line ++ cr :: lf :: rest) := by
      rintro ⟨others, same⟩
      obtain ⟨rfl, following⟩ := List.cons.inj same
      cases line with
      | nil => simp [cr, lf] at following
      | cons next line =>
        obtain ⟨rfl, -⟩ := List.cons.inj following
        exact single.1 ⟨line, rfl⟩
    rw [List.cons_append, findCrlf, if_neg notHere, ih single.2]
    rfl

theorem findCrlf_none {data : List UInt8} (free : ¬ crlf <:+: data) : findCrlf data = none := by
  induction data with
  | nil => rfl
  | cons byte rest ih =>
    rw [crlf, List.infix_cons_iff, not_or] at free
    rw [findCrlf, if_neg free.1, ih free.2]
    rfl

/-- The first line of the data and what stands behind it. -/
theorem findCrlf_some {data : List UInt8} (found : findCrlf data = some nl) :
    ∃ line rest, data = line ++ cr :: lf :: rest ∧ line.length = nl ∧ ¬ crlf <:+: line := by
  induction data generalizing nl with
  | nil => cases found
  | cons byte data ih =>
    rw [findCrlf] at found
    split at found
    · rename_i here
      obtain ⟨rest, same⟩ := here
      cases found
      exact ⟨[], rest, same.symm, rfl, by simp [crlf]⟩
    · rename_i notHere
      obtain ⟨index, later, rfl⟩ := Option.map_eq_some_iff.mp found
      obtain ⟨line, rest, rfl, rfl, single⟩ := ih later
      refine ⟨byte :: line, rest, rfl, rfl, ?_⟩
      rw [crlf, List.infix_cons_iff, not_or]
      refine ⟨fun here => notHere ?_, single⟩
      exact here.trans (List.prefix_append (byte :: line) _)

theorem findCrlf_cases (data : List UInt8) : findCrlf data = none ∨
    ∃ line rest, data = line ++ cr :: lf :: rest ∧ ¬ crlf <:+: line := by
  cases found : findCrlf data with
  | none => exact .inl rfl
  | some nl =>
    obtain ⟨line, rest, split, -, single⟩ := findCrlf_some found
    exact .inr ⟨line, rest, split, single⟩

/-! ## Rounds -/

/-- The size that a line states. -/
def readSize (line : List UInt8) : Except String Nat :=
  match Text.fromUtf8 (line.takeWhile (· != 59)) with
  | none => .error "chunked body: chunk size not UTF-8"
  | some sizeStr =>
      match Text.parseUnsigned 16 (2 ^ 64) (Text.trim sizeStr.toList) with
      | none => .error "chunked body: invalid chunk size"
      | some size => .ok size

/-- The line break after the data of a chunk, if it is there. -/
def skipCrlf (data : List UInt8) : List UInt8 := if [cr, lf] <+: data then data.drop 2 else data

/-- One round: a size line, the data of the chunk and the line break behind it. -/
theorem dechunkLoop_line {line : List UInt8} (single : ¬ crlf <:+: line) (rest out : List UInt8) (fuel : Nat) :
    dechunkLoop (fuel + 1) (line ++ cr :: lf :: rest) out =
      match readSize line with
      | .error message => .error message
      | .ok size =>
          if size = 0 then .ok out
          else if rest.length < size then .error "chunked body: truncated chunk"
          else dechunkLoop fuel (skipCrlf (rest.drop size)) (out ++ rest.take size) := by
  have behind : (line ++ cr :: lf :: rest).drop (line.length + 2) = rest := by
    rw [← List.drop_drop, List.drop_left]
    rfl
  rw [dechunkLoop, findCrlf_line single, readSize]
  simp only [List.take_left, behind]
  cases Text.fromUtf8 (line.takeWhile (· != 59)) with
  | none => rfl
  | some sizeStr =>
    dsimp only
    cases Text.parseUnsigned 16 (2 ^ 64) (Text.trim sizeStr.toList) <;> rfl

theorem dechunkLoop_noLine {data : List UInt8} (free : findCrlf data = none) (out : List UInt8) (fuel : Nat) :
    dechunkLoop fuel data out = .error "chunked body: missing chunk-size line" := by
  cases fuel with
  | zero => rfl
  | succ fuel => rw [dechunkLoop, free]

/-! ## Ranges -/

/-- `&data[..n]`; out of range there is nothing. -/
def sliceTo (data : List UInt8) (n : Nat) : Option (List UInt8) :=
  if n ≤ data.length then some (data.take n) else none

/-- `&data[n..]`. -/
def sliceFrom (data : List UInt8) (n : Nat) : Option (List UInt8) :=
  if n ≤ data.length then some (data.drop n) else none

def skipCrlfChecked (data : List UInt8) : Option (List UInt8) :=
  if data.length ≥ 2 then do
    let first ← sliceTo data 2
    if first = [cr, lf] then sliceFrom data 2 else some data
  else some data

/-- The same loop with every slice checked, `none` where the code would panic. -/
def dechunkChecked : Nat → List UInt8 → List UInt8 → Option (Except String (List UInt8))
  | 0, _, _ => some (.error "chunked body: missing chunk-size line")
  | fuel + 1, data, out =>
      match findCrlf data with
      | none => some (.error "chunked body: missing chunk-size line")
      | some nl => do
        let line ← sliceTo data nl
        match readSize line with
        | .error message => some (.error message)
        | .ok size =>
          let data ← sliceFrom data (nl + 2)
          if size = 0 then some (.ok out)
          else if data.length < size then some (.error "chunked body: truncated chunk")
          else
            let piece ← sliceTo data size
            let data ← sliceFrom data size
            let data ← skipCrlfChecked data
            dechunkChecked fuel data (out ++ piece)

theorem skipCrlfChecked_eq (data : List UInt8) : skipCrlfChecked data = some (skipCrlf data) := by
  unfold skipCrlfChecked skipCrlf
  by_cases long : data.length ≥ 2
  · simp only [long, if_true, sliceTo, sliceFrom, Option.bind_eq_bind, Option.bind_some,
      List.prefix_iff_eq_take, List.length_cons, List.length_nil, eq_comm]
    split <;> rfl
  · have short : ¬ [cr, lf] <+: data := fun first => long first.length_le
    rw [if_neg long, if_neg short]

/-- Every slice that `dechunk` takes is in range. -/
theorem dechunkChecked_eq (fuel : Nat) (data out : List UInt8) :
    dechunkChecked fuel data out = some (dechunkLoop fuel data out) := by
  induction fuel generalizing data out with
  | zero => rfl
  | succ fuel ih =>
    rw [dechunkChecked]
    cases found : findCrlf data with
    | none => rw [dechunkLoop_noLine found]
    | some nl =>
      obtain ⟨line, rest, rfl, rfl, single⟩ := findCrlf_some found
      have behind : (line ++ cr :: lf :: rest).drop (line.length + 2) = rest := by
        rw [← List.drop_drop, List.drop_left]
        rfl
      have inside : line.length + 2 ≤ (line ++ cr :: lf :: rest).length := by simp
      rw [dechunkLoop_line single]
      have cut : sliceTo (line ++ cr :: lf :: rest) line.length = some line := by simp [sliceTo]
      have past : sliceFrom (line ++ cr :: lf :: rest) (line.length + 2) = some rest := by
        rw [sliceFrom, if_pos inside, behind]
      simp only [cut, past, Option.bind_eq_bind, Option.bind_some]
      cases readSize line with
      | error message => rfl
      | ok size =>
        dsimp only
        by_cases zero : size = 0
        · simp only [zero, if_true]
        · by_cases short : rest.length < size
          · simp only [zero, short, if_true, if_false]
          · have enough : size ≤ rest.length := Nat.le_of_not_lt short
            simp only [zero, short, if_false, sliceTo, sliceFrom, enough, if_true, Option.bind_some,
              skipCrlfChecked_eq, ih]

/-! ## Encoded bodies -/

/-- A size line as it is sent: hexadecimal digits in either case, leading zeros allowed, and
perhaps an extension. -/
structure SizeLine (size : Nat) where
  digits : List Char
  stated : digits ≠ []
  value : (digits.mapM (Text.toDigit 16)).map (Text.digitsValue 16) = some size
  extension : List UInt8
  marked : extension = [] ∨ extension.head? = some 59
  single : ¬ crlf <:+: extension

def SizeLine.text (line : SizeLine size) : List UInt8 := Text.bytes (String.ofList line.digits) ++ line.extension

structure Chunk where
  data : List UInt8
  nonempty : data ≠ []
  /-- No slice is as long as that. -/
  fits : data.length < 2 ^ 64
  line : SizeLine data.length

def Chunk.encode (chunk : Chunk) : List UInt8 := chunk.line.text ++ crlf ++ chunk.data ++ crlf

/-- The body up to its zero-size line. -/
def encodeBody (chunks : List Chunk) (last : SizeLine 0) : List UInt8 :=
  chunks.flatMap Chunk.encode ++ (last.text ++ crlf)

theorem SizeLine.digit (line : SizeLine size) : ∀ c ∈ line.digits, ∃ value, Text.toDigit 16 c = some value := by
  obtain ⟨values, digits, -⟩ := Option.map_eq_some_iff.mp line.value
  exact Text.mapM_digits digits

theorem SizeLine.not_mem (line : SizeLine size) {c : Char} (ascii : c.toNat ≤ 127)
    (other : Text.toDigit 16 c = none) : UInt8.ofNat c.toNat ∉ Text.bytes (String.ofList line.digits) := by
  rw [Text.mem_bytes ascii, String.toList_ofList]
  intro member
  obtain ⟨value, digit⟩ := line.digit c member
  rw [other] at digit
  cases digit

theorem SizeLine.oneLine (line : SizeLine size) : ¬ crlf <:+: line.text := by
  have free : cr ∉ Text.bytes (String.ofList line.digits) :=
    line.not_mem (c := '\r') (by decide) (by decide)
  rw [SizeLine.text, List.infix_append_iff]
  rintro (inside | inside | ⟨front, back, split, ends, begins⟩)
  · exact free (inside.subset (by simp [crlf]))
  · exact line.single inside
  · cases front with
    | nil => exact line.single ((split ▸ begins : crlf <+: line.extension).isInfix)
    | cons first others =>
      obtain ⟨rfl, -⟩ := List.cons.inj split
      exact free (ends.subset List.mem_cons_self)

theorem takeWhile_marked {field extension : List UInt8} (free : 59 ∉ field)
    (marked : extension = [] ∨ extension.head? = some 59) :
    (field ++ extension).takeWhile (· != 59) = field := by
  have kept : ∀ byte ∈ field, (byte != 59) = true := by
    intro byte member
    exact bne_iff_ne.mpr fun same => free (same ▸ member)
  rw [List.takeWhile_append_of_pos kept]
  rcases marked with rfl | marked
  · simp
  · obtain ⟨rest, rfl⟩ := List.head?_eq_some_iff.mp marked
    simp

theorem SizeLine.reads (line : SizeLine size) (fits : size < 2 ^ 64) : readSize line.text = .ok size := by
  have field : line.text.takeWhile (· != 59) = Text.bytes (String.ofList line.digits) :=
    takeWhile_marked (line.not_mem (c := ';') (by decide) (by decide)) line.marked
  obtain ⟨values, digits, -⟩ := Option.map_eq_some_iff.mp line.value
  have bare : Text.trim line.digits = line.digits := by
    have padded : Text.trim ([] ++ line.digits ++ []) = line.digits :=
      Text.trim_digits nofun digits line.stated
    simpa using padded
  have unsigned := Text.unsigned_digits digits
  have kept : (some size).filter (fun value => decide (value < 2 ^ 64)) = some size := by
    rw [Option.filter_some, if_pos (decide_eq_true fits)]
  rw [readSize, field, Text.fromUtf8_eq_some_iff.mpr rfl]
  simp only [String.toList_ofList, bare, Text.parseUnsigned_unsigned unsigned, line.stated, if_false, line.value,
    kept]

theorem prefix_append_cases {part first second : List α} (cut : part <+: first ++ second) :
    part <+: first ∧ part.length < first.length ∨ ∃ rest, part = first ++ rest ∧ rest <+: second := by
  by_cases short : part.length < first.length
  · exact .inl ⟨List.prefix_of_prefix_length_le cut (List.prefix_append _ _) short.le, short⟩
  · obtain ⟨rest, rfl⟩ := List.prefix_of_prefix_length_le (List.prefix_append first second) cut (by omega)
    exact .inr ⟨rest, rfl, (List.prefix_append_right_inj first).mp cut⟩

theorem crlf_not_infix_concat {line : List UInt8} (single : ¬ crlf <:+: line) : ¬ crlf <:+: line ++ [cr] := by
  rw [List.infix_concat_iff, not_or]
  refine ⟨fun ends => ?_, single⟩
  obtain ⟨front, same⟩ := ends
  have last := congrArg List.getLast? same
  simp [crlf, cr, lf] at last

/-- A part of a line that does not reach behind its line break. -/
theorem findCrlf_cut {line part : List UInt8} (single : ¬ crlf <:+: line) (cut : part <+: line ++ crlf)
    (short : part.length < (line ++ crlf).length) : findCrlf part = none := by
  have within : part <+: line ++ [cr] := by
    apply List.prefix_of_prefix_length_le cut
    · exact ⟨[lf], by simp [crlf]⟩
    · simp only [crlf, List.length_append, List.length_cons, List.length_nil] at short ⊢
      omega
  exact findCrlf_none fun inside => crlf_not_infix_concat single (inside.trans within.isInfix)

theorem Chunk.pos (chunk : Chunk) : ¬ chunk.data.length = 0 :=
  fun empty => chunk.nonempty (List.length_eq_zero_iff.mp empty)

/-- One whole chunk is one round. -/
theorem dechunkLoop_chunk (chunk : Chunk) (rest out : List UInt8) (fuel : Nat) :
    dechunkLoop (fuel + 1) (chunk.encode ++ rest) out = dechunkLoop fuel rest (out ++ chunk.data) := by
  have shape : chunk.encode ++ rest = chunk.line.text ++ cr :: lf :: (chunk.data ++ cr :: lf :: rest) := by
    simp [Chunk.encode, crlf]
  have enough : ¬ (chunk.data ++ cr :: lf :: rest).length < chunk.data.length := by simp
  rw [shape, dechunkLoop_line chunk.line.oneLine, chunk.line.reads chunk.fits]
  simp only [chunk.pos, if_false, enough, List.drop_left, List.take_left]
  rw [skipCrlf, if_pos ⟨rest, rfl⟩]
  rfl

/-- A chunk that is cut anywhere ends the reading. -/
theorem dechunkLoop_cutChunk (chunk : Chunk) {part : List UInt8} (cut : part <+: chunk.encode)
    (short : part.length < chunk.encode.length) (out : List UInt8) (fuel : Nat) :
    ∃ message, dechunkLoop fuel part out = .error message := by
  have shape : chunk.encode = (chunk.line.text ++ crlf) ++ (chunk.data ++ crlf) := by
    simp [Chunk.encode]
  rw [shape] at cut short
  cases fuel with
  | zero => exact ⟨_, rfl⟩
  | succ fuel =>
    rcases prefix_append_cases cut with ⟨inside, cutLine⟩ | ⟨rest, rfl, inside⟩
    · exact ⟨_, dechunkLoop_noLine (findCrlf_cut chunk.line.oneLine inside cutLine) out _⟩
    · have line : chunk.line.text ++ crlf ++ rest = chunk.line.text ++ cr :: lf :: rest := by simp [crlf]
      rw [line, dechunkLoop_line chunk.line.oneLine, chunk.line.reads chunk.fits]
      simp only [chunk.pos, if_false]
      rcases prefix_append_cases inside with ⟨-, cutData⟩ | ⟨tail, rfl, ending⟩
      · exact ⟨_, if_pos cutData⟩
      · -- the data is complete and its line break is not
        have little : tail.length < 2 := by
          simp only [List.length_append, crlf, List.length_cons, List.length_nil] at short
          omega
        have broken : ¬ [cr, lf] <+: tail := fun whole => by
          have longer := whole.length_le
          simp only [List.length_cons, List.length_nil] at longer
          omega
        have none : findCrlf tail = none :=
          @findCrlf_cut [] tail (by simp [crlf]) ending (by simpa [crlf] using little)
        have enough : ¬ (chunk.data ++ tail).length < chunk.data.length := by simp
        rw [if_neg enough, List.drop_left, skipCrlf, if_neg broken]
        exact ⟨_, dechunkLoop_noLine none _ _⟩

/-- Reading stops with an error at every cut of the body and nowhere else. -/
theorem dechunkLoop_body (chunks : List Chunk) (last : SizeLine 0) {trailer part : List UInt8}
    (cut : part <+: encodeBody chunks last ++ trailer) {fuel : Nat} (enough : part.length < fuel)
    (out : List UInt8) :
    (encodeBody chunks last <+: part → dechunkLoop fuel part out = .ok (out ++ chunks.flatMap Chunk.data)) ∧
    (¬ encodeBody chunks last <+: part → ∃ message, dechunkLoop fuel part out = .error message) := by
  induction chunks generalizing part fuel out with
  | nil =>
    obtain ⟨fuel, rfl⟩ : ∃ n, fuel = n + 1 := ⟨fuel - 1, by omega⟩
    constructor
    · rintro ⟨rest, rfl⟩
      simp only [encodeBody, List.flatMap_nil, List.nil_append, crlf, List.append_assoc, List.cons_append]
      rw [dechunkLoop_line last.oneLine, last.reads (by decide)]
      simp
    · intro missing
      rcases prefix_append_cases cut with ⟨inside, short⟩ | ⟨rest, rfl, -⟩
      · exact ⟨_, dechunkLoop_noLine (findCrlf_cut last.oneLine inside short) out _⟩
      · exact absurd (List.prefix_append _ _) missing
  | cons chunk chunks ih =>
    have shape : encodeBody (chunk :: chunks) last = chunk.encode ++ encodeBody chunks last := by
      simp [encodeBody]
    rw [shape, List.append_assoc] at cut
    rw [shape]
    rcases prefix_append_cases cut with ⟨inside, short⟩ | ⟨rest, rfl, following⟩
    · constructor
      · intro whole
        have longer := whole.length_le
        rw [List.length_append] at longer
        omega
      · intro _
        exact dechunkLoop_cutChunk chunk inside short out fuel
    · obtain ⟨fuel, rfl⟩ : ∃ n, fuel = n + 1 := ⟨fuel - 1, by omega⟩
      rw [List.length_append] at enough
      have nonempty : 0 < chunk.encode.length := by
        have := chunk.pos
        simp only [Chunk.encode, List.length_append]
        omega
      rw [dechunkLoop_chunk, List.prefix_append_right_inj, List.flatMap_cons, ← List.append_assoc]
      exact ih following (by omega) (out ++ chunk.data)

/-- `dechunk` gives back the chunks of a body exactly when the body is complete, and stays in range
on every input. -/
theorem dechunk_encoded (chunks : List Chunk) (last : SizeLine 0) {trailer part : List UInt8}
    (cut : part <+: encodeBody chunks last ++ trailer) :
    (encodeBody chunks last <+: part → dechunk part = .ok (chunks.flatMap Chunk.data)) ∧
    (¬ encodeBody chunks last <+: part → ∃ message, dechunk part = .error message) ∧
    ∀ data, dechunkChecked (data.length + 1) data [] = some (dechunk data) := by
  obtain ⟨complete, incomplete⟩ := dechunkLoop_body chunks last cut (Nat.lt_succ_self _) []
  exact ⟨complete, incomplete, fun data => dechunkChecked_eq _ data []⟩

/-- Two bytes that are themselves a line break, with a leading zero and an extension. -/
def sampleChunk : Chunk where
  data := [cr, lf]
  nonempty := by decide
  fits := by decide
  line := ⟨['0', '2'], by decide, by decide, [59, 97], by decide, by decide⟩

/-- A size without an extension. -/
def SizeLine.bare (digits : List Char) (stated : digits ≠ [])
    (value : (digits.mapM (Text.toDigit 16)).map (Text.digitsValue 16) = some size) : SizeLine size :=
  ⟨digits, stated, value, [], .inl rfl, by decide⟩

def sampleLast : SizeLine 0 := .bare ['0'] (by decide) (by decide)

/-- The same body without its last byte is refused. -/
theorem dechunk_sample_cut : ∃ message, dechunk [48, 50, 59, 97, 13, 10, 13, 10, 13, 10, 48, 13] = .error message := by
  have cut : [48, 50, 59, 97, 13, 10, 13, 10, 13, 10, 48, 13] <+: encodeBody [sampleChunk] sampleLast ++ [] := by
    decide +kernel
  exact (dechunk_encoded [sampleChunk] sampleLast cut).2.1 (by decide +kernel)

/-! ## The documented grammar -/

/-- A size line as the documentation of `dechunk` has it: hexadecimal digits between white space,
and perhaps an extension. -/
def StatesSize (line : List UInt8) (size : Nat) : Prop :=
  ¬ crlf <:+: line ∧ ∃ (front digits back : List Char) (extension : List UInt8),
    line = Text.bytes (String.ofList (front ++ digits ++ back)) ++ extension ∧
    (∀ c ∈ front ++ back, Text.isWhitespace c = true) ∧
    (extension = [] ∨ extension.head? = some 59) ∧
    digits ≠ [] ∧ (digits.mapM (Text.toDigit 16)).map (Text.digitsValue 16) = some size

/-- Data of the documented form, and the body it stands for. -/
inductive Documented : List UInt8 → List UInt8 → Prop where
  | last {line : List UInt8} (zero : StatesSize line 0) (rest : List UInt8) :
      Documented (line ++ crlf ++ rest) []
  | chunk {line piece rest out : List UInt8} (states : StatesSize line piece.length) (nonempty : piece ≠ [])
      (more : Documented rest out) : Documented (line ++ crlf ++ piece ++ crlf ++ rest) (piece ++ out)

/-- Where `dechunk` goes beyond the documentation. -/
inductive Departure where
  /-- A size with a leading `+`. -/
  | sign
  /-- No line break after the data of a chunk. -/
  | missingCrlf
  deriving DecidableEq, Repr

/-- The text that is read as the size. -/
def sizeText (line : List UInt8) : Option (List Char) :=
  (Text.fromUtf8 (line.takeWhile (· != 59))).map fun sizeStr => Text.trim sizeStr.toList

def signs (line : List UInt8) : List Departure :=
  if (sizeText line).any (·.head? == some '+') then [.sign] else []

/-- The departures on the way through the data, round by round as `dechunk` reads it. -/
def departuresLoop : Nat → List UInt8 → List Departure
  | 0, _ => []
  | fuel + 1, data =>
      match findCrlf data with
      | none => []
      | some nl =>
          signs (data.take nl) ++
          match readSize (data.take nl) with
          | .error _ => []
          | .ok size =>
              let data := (data.drop (nl + 2)).drop size
              if size = 0 then []
              else (if [cr, lf] <+: data then [] else [.missingCrlf]) ++ departuresLoop fuel (skipCrlf data)

def departures (data : List UInt8) : List Departure := departuresLoop (data.length + 1) data

theorem departuresLoop_line {line : List UInt8} (single : ¬ crlf <:+: line) (rest : List UInt8) (fuel : Nat) :
    departuresLoop (fuel + 1) (line ++ cr :: lf :: rest) = signs line ++
      match readSize line with
      | .error _ => []
      | .ok size =>
          if size = 0 then []
          else (if [cr, lf] <+: rest.drop size then [] else [.missingCrlf]) ++
            departuresLoop fuel (skipCrlf (rest.drop size)) := by
  have behind : (line ++ cr :: lf :: rest).drop (line.length + 2) = rest := by
    rw [← List.drop_drop, List.drop_left]
    rfl
  rw [departuresLoop, findCrlf_line single]
  simp only [List.take_left, behind]

theorem readSize_ok (read : readSize line = .ok size) : ∃ sizeStr,
    line.takeWhile (· != 59) = Text.bytes sizeStr ∧ sizeText line = some (Text.trim sizeStr.toList) ∧
    Text.parseUnsigned 16 (2 ^ 64) (Text.trim sizeStr.toList) = some size := by
  unfold readSize at read
  unfold sizeText
  cases decoded : Text.fromUtf8 (line.takeWhile (· != 59)) with
  | none =>
    rw [decoded] at read
    cases read
  | some sizeStr =>
    rw [decoded] at read
    dsimp only at read
    split at read
    · cases read
    · rename_i parsed
      cases read
      exact ⟨sizeStr, Text.bytes_of_fromUtf8 decoded, rfl, parsed⟩

theorem signs_nil (line : List UInt8) :
    signs line = [] ↔ ∀ text, sizeText line = some text → text.head? ≠ some '+' := by
  unfold signs
  cases sizeText line <;> simp

/-- A line that is read without a sign has the documented form. -/
theorem StatesSize.of_read {line : List UInt8} (single : ¬ crlf <:+: line) (read : readSize line = .ok size)
    (unsigned : signs line = []) : StatesSize line size := by
  obtain ⟨sizeStr, field, text, parsed⟩ := readSize_ok read
  rw [Text.parseUnsigned_unsigned ((signs_nil line).mp unsigned _ text)] at parsed
  obtain ⟨front, back, split, blank⟩ := Text.trim_split sizeStr.toList
  split at parsed
  · cases parsed
  · rename_i stated
    refine ⟨single, front, Text.trim sizeStr.toList, back, line.dropWhile (· != 59), ?_, blank, ?_, stated,
      (Option.filter_eq_some_iff.mp parsed).1⟩
    · rw [← split, String.ofList_toList, ← field, List.takeWhile_append_dropWhile]
    · cases ext : line.dropWhile (· != 59) with
      | nil => exact .inl rfl
      | cons first rest =>
        have stop := List.head?_dropWhile_not (fun byte : UInt8 => byte != 59) line
        rw [ext] at stop
        simpa using stop

/-- A line of the documented form can only be read as its size, without a sign. -/
theorem StatesSize.read {line : List UInt8} (states : StatesSize line size) (read : readSize line = .ok other) :
    other = size ∧ signs line = [] := by
  obtain ⟨-, front, digits, back, extension, rfl, blank, marked, stated, value⟩ := states
  obtain ⟨sizeStr, field, text, parsed⟩ := readSize_ok read
  obtain ⟨values, mapped, -⟩ := Option.map_eq_some_iff.mp value
  have free : (59 : UInt8) ∉ Text.bytes (String.ofList (front ++ digits ++ back)) := by
    have semicolon : (59 : UInt8) = UInt8.ofNat (';' : Char).toNat := by decide
    rw [semicolon, Text.mem_bytes (by decide), String.toList_ofList]
    rw [List.append_assoc, List.mem_append, List.mem_append]
    rintro (before | inside | behind)
    · exact absurd (blank ';' (List.mem_append_left _ before)) (by decide)
    · obtain ⟨value, digit⟩ := Text.mapM_digits mapped ';' inside
      exact absurd digit (by simp [show Text.toDigit 16 ';' = none by decide])
    · exact absurd (blank ';' (List.mem_append_right _ behind)) (by decide)
  rw [takeWhile_marked free marked] at field
  obtain rfl := Text.bytes_injective field
  have unsigned := Text.unsigned_digits mapped
  rw [String.toList_ofList, Text.trim_digits blank mapped stated] at text parsed
  rw [Text.parseUnsigned_unsigned unsigned, if_neg stated, value] at parsed
  refine ⟨(Option.some.inj (Option.filter_eq_some_iff.mp parsed).1).symm, ?_⟩
  rw [signs_nil, text]
  rintro _ ⟨⟩
  exact unsigned

theorem skipCrlf_crlf (rest : List UInt8) : skipCrlf (cr :: lf :: rest) = rest := by
  rw [skipCrlf, if_pos ⟨rest, rfl⟩]
  rfl

/-- Data of the documented form is read without a departure, as the body it stands for. -/
theorem Documented.read (documented : Documented data body) (read : dechunkLoop fuel data out = .ok result) :
    departuresLoop fuel data = [] ∧ result = out ++ body := by
  induction documented generalizing fuel out with
  | @last line zero rest =>
    cases fuel with
    | zero => cases read
    | succ fuel =>
      have shape : line ++ crlf ++ rest = line ++ cr :: lf :: rest := by simp [crlf]
      rw [shape] at read ⊢
      rw [dechunkLoop_line zero.1] at read
      rw [departuresLoop_line zero.1]
      cases stated : readSize line with
      | error message => simp [stated] at read
      | ok size =>
        obtain ⟨rfl, unsigned⟩ := zero.read stated
        simp only [stated, if_true, Except.ok.injEq] at read
        simp [unsigned, read]
  | @chunk line piece rest body states nonempty more ih =>
    cases fuel with
    | zero => cases read
    | succ fuel =>
      have shape : line ++ crlf ++ piece ++ crlf ++ rest = line ++ cr :: lf :: (piece ++ cr :: lf :: rest) := by
        simp [crlf]
      rw [shape] at read ⊢
      rw [dechunkLoop_line states.1] at read
      rw [departuresLoop_line states.1]
      cases stated : readSize line with
      | error message => simp [stated] at read
      | ok size =>
        obtain ⟨rfl, unsigned⟩ := states.read stated
        have positive : piece.length ≠ 0 := fun empty => nonempty (List.length_eq_zero_iff.mp empty)
        have enough : ¬ (piece ++ cr :: lf :: rest).length < piece.length := by simp
        simp only [stated, positive, enough, if_false, List.drop_left, List.take_left, skipCrlf_crlf] at read
        obtain ⟨clean, rfl⟩ := ih read
        simp only [unsigned, positive, if_false, List.drop_left, skipCrlf_crlf, clean, List.append_assoc, and_true]
        rw [if_pos ⟨rest, rfl⟩]
        rfl

/-- Data that is read without a departure has the documented form. -/
theorem Documented.of_read (read : dechunkLoop fuel data out = .ok result) (clean : departuresLoop fuel data = []) :
    ∃ body, result = out ++ body ∧ Documented data body := by
  induction fuel generalizing data out with
  | zero => cases read
  | succ fuel ih =>
    rcases findCrlf_cases data with free | ⟨line, rest, rfl, single⟩
    · rw [dechunkLoop_noLine free] at read
      cases read
    · rw [dechunkLoop_line single] at read
      rw [departuresLoop_line single, List.append_eq_nil_iff] at clean
      obtain ⟨unsigned, clean⟩ := clean
      have shape : line ++ cr :: lf :: rest = line ++ crlf ++ rest := by simp [crlf]
      rw [shape]
      cases stated : readSize line with
      | error message => simp [stated] at read
      | ok size =>
        have states := StatesSize.of_read single stated unsigned
        simp only [stated] at read clean
        by_cases zero : size = 0
        · subst zero
          cases read
          exact ⟨[], (List.append_nil _).symm, .last states rest⟩
        · simp only [zero, if_false] at read clean
          split at read
          · cases read
          · rename_i enough
            obtain ⟨closed, clean⟩ := List.append_eq_nil_iff.mp clean
            obtain ⟨body, rfl, documented⟩ := ih read clean
            split at closed
            · rename_i broken
              obtain ⟨more, split⟩ := broken
              have length : (rest.take size).length = size := List.length_take_of_le (Nat.le_of_not_lt enough)
              have whole : line ++ crlf ++ rest = line ++ crlf ++ rest.take size ++ crlf ++ more := by
                rw [List.append_assoc _ crlf more, List.append_assoc _ (rest.take size), crlf, split,
                  List.take_append_drop]
              rw [← split] at documented
              rw [whole]
              refine ⟨rest.take size ++ body, List.append_assoc .., .chunk (by rwa [length]) ?_ ?_⟩
              · exact List.ne_nil_of_length_pos (by omega)
              · rwa [List.cons_append, List.cons_append, List.nil_append, skipCrlf_crlf] at documented
            · cases closed

/-- What `dechunk` accepts has the documented form exactly when no size has a sign and every chunk's
data is followed by a line break. -/
theorem dechunk_documented_iff (accepted : dechunk data = .ok out) :
    Documented data out ↔ departures data = [] := by
  constructor
  · intro documented
    exact (documented.read accepted).1
  · intro clean
    obtain ⟨body, rfl, documented⟩ := Documented.of_read accepted clean
    exact documented

/-- One byte, properly framed. -/
theorem dechunk_documented_sample : Documented [49, 13, 10, 88, 13, 10, 48, 13, 10] [88] := by
  have accepted : dechunk [49, 13, 10, 88, 13, 10, 48, 13, 10] = .ok [88] := by decide +kernel
  exact (dechunk_documented_iff accepted).mpr (by decide +kernel)

/-- `1\r\nX0\r\n`: the line break after the data is missing, and the body is accepted. -/
theorem dechunk_accepts_missing_crlf :
    dechunk [49, 13, 10, 88, 48, 13, 10] = .ok [88] ∧ ∀ body, ¬ Documented [49, 13, 10, 88, 48, 13, 10] body := by
  have accepted : dechunk [49, 13, 10, 88, 48, 13, 10] = .ok [88] := by decide +kernel
  refine ⟨accepted, fun body documented => ?_⟩
  have clean := (documented.read accepted).1
  exact absurd clean (by decide +kernel)

end SkyDaemon.Runtime
