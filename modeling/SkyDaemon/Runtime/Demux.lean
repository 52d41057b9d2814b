import SkyDaemon.Foundation.Framing
import SkyDaemon.Foundation.Text

/-! De-multiplexing of an attached stream: frame headers and the line splitter. -/
namespace SkyDaemon.Runtime

def streamStdout : UInt8 := 1
def streamStderr : UInt8 := 2

def newline : UInt8 := 10
def carriageReturn : UInt8 := 13

structure FrameHeader where
  streamType : UInt8
  size : Nat
  deriving DecidableEq, Repr

def beU32 (a b c d : UInt8) : Nat := ((a.toNat * 256 + b.toNat) * 256 + c.toNat) * 256 + d.toNat

/-- Eight bytes: the type, three bytes of padding, the big-endian size. -/
def parseFrameHeader : List UInt8 → Option FrameHeader
  | streamType :: _ :: _ :: _ :: a :: b :: c :: d :: _ => some ⟨streamType, beU32 a b c d⟩
  | _ => none

/-- The first complete frame of the buffer, as its type and payload. -/
def nextFrame (buf : List UInt8) : Option ((UInt8 × List UInt8) × List UInt8) :=
  match parseFrameHeader buf with
  | none => none
  | some header =>
      if buf.length < 8 + header.size then none
      else some ((header.streamType, (buf.drop 8).take header.size), buf.drop (8 + header.size))

/-- The bytes before the first newline and those after it. -/
def nextLine : List UInt8 → Option (List UInt8 × List UInt8)
  | [] => none
  | byte :: rest =>
      if byte = newline then some ([], rest)
      else (nextLine rest).map fun (line, more) => (byte :: line, more)

theorem nextLine_iff : nextLine buf = some (line, rest) ↔
    buf = line ++ newline :: rest ∧ newline ∉ line := by
  induction buf generalizing line with
  | nil => simp [nextLine]
  | cons byte buf ih =>
    by_cases ends : byte = newline
    · simp only [nextLine, ends, if_true, Option.some.injEq, Prod.mk.injEq]
      constructor
      · rintro ⟨rfl, rfl⟩
        simp
      · rintro ⟨same, free⟩
        cases line with
        | nil => exact ⟨rfl, (List.cons.inj same).2⟩
        | cons first line =>
          have first := (List.cons.inj same).1
          simp [← first] at free
    · simp only [nextLine, ends, if_false, Option.map_eq_some_iff, Prod.exists, Prod.mk.injEq]
      constructor
      · rintro ⟨line, rest, found, rfl, rfl⟩
        obtain ⟨rfl, free⟩ := ih.mp found
        exact ⟨rfl, by simp [free, Ne.symm ends]⟩
      · rintro ⟨same, free⟩
        cases line with
        | nil => exact absurd (List.cons.inj same).1 ends
        | cons first line =>
          obtain ⟨rfl, following⟩ := List.cons.inj same
          simp only [List.mem_cons, not_or] at free
          exact ⟨line, rest, ih.mpr ⟨following, free.2⟩, rfl, rfl⟩

theorem nextLine_none : nextLine buf = none ↔ newline ∉ buf := by
  induction buf with
  | nil => simp [nextLine]
  | cons byte buf ih =>
    by_cases ends : byte = newline
    · simp [nextLine, ends]
    · simp [nextLine, ends, Ne.symm ends, ih]

def lineFraming : Framing UInt8 (List UInt8) where
  next := nextLine
  shrinks := by
    intro buf line rest found
    obtain ⟨rfl, -⟩ := nextLine_iff.mp found
    simp
    omega
  stable := by
    intro buf line rest more found
    obtain ⟨rfl, free⟩ := nextLine_iff.mp found
    exact nextLine_iff.mpr ⟨by simp, free⟩

theorem parseFrameHeader_append (found : parseFrameHeader buf = some header) (more : List UInt8) :
    8 ≤ buf.length ∧ parseFrameHeader (buf ++ more) = some header := by
  unfold parseFrameHeader at found
  split at found
  · cases found
    exact ⟨by simp, rfl⟩
  · contradiction

theorem nextFrame_iff : nextFrame buf = some (frame, rest) ↔
    ∃ header, parseFrameHeader buf = some header ∧ 8 + header.size ≤ buf.length ∧
      frame = (header.streamType, (buf.drop 8).take header.size) ∧
      rest = buf.drop (8 + header.size) := by
  unfold nextFrame
  cases found : parseFrameHeader buf with
  | none => simp
  | some header =>
    by_cases short : buf.length < 8 + header.size
    · simp [short]
    · simp only [short, if_false, Option.some.injEq, Prod.mk.injEq]
      constructor
      · rintro ⟨rfl, rfl⟩
        exact ⟨header, rfl, by omega, rfl, rfl⟩
      · rintro ⟨_, rfl, -, rfl, rfl⟩
        exact ⟨rfl, rfl⟩

def frameFraming : Framing UInt8 (UInt8 × List UInt8) where
  next := nextFrame
  shrinks := by
    intro buf frame rest found
    obtain ⟨header, -, fits, -, rfl⟩ := nextFrame_iff.mp found
    rw [List.length_drop]
    omega
  stable := by
    intro buf frame rest more found
    obtain ⟨header, parsed, fits, rfl, rfl⟩ := nextFrame_iff.mp found
    obtain ⟨-, parsed⟩ := parseFrameHeader_append parsed more
    refine nextFrame_iff.mpr ⟨header, parsed, by rw [List.length_append]; omega, ?_, ?_⟩
    · rw [List.drop_append_of_le_length (by omega), List.take_append_of_le_length]
      rw [List.length_drop]
      omega
    · rw [List.drop_append_of_le_length fits]

/-- One `\r` directly before the newline goes too. -/
def chomp (line : List UInt8) : List UInt8 :=
  if line.getLast? = some carriageReturn then line.dropLast else line

structure LineSplitter where
  buf : List UInt8
  deriving DecidableEq, Repr

def LineSplitter.new : LineSplitter := ⟨[]⟩

/-- Appends the data and takes out every complete line. -/
def LineSplitter.feed (splitter : LineSplitter) (data : List UInt8) : List String × LineSplitter :=
  let taken := lineFraming.drain (splitter.buf ++ data)
  (taken.1.map fun line => Text.lossy (chomp line), ⟨taken.2⟩)

/-- The newline-terminated lines of a text, without their ends. -/
def completeLines (content : List UInt8) : List String :=
  (content.splitOn newline).dropLast.map fun line => Text.lossy (chomp line)

theorem drain_lines (content : List UInt8) :
    (lineFraming.drain content).1 = (content.splitOn newline).dropLast := by
  induction content using lineFraming.induct with
  | stuck content none =>
    rw [lineFraming.drain_none none, List.splitOn_eq_singleton (nextLine_none.mp none)]
    rfl
  | step content line rest found ih =>
    rw [lineFraming.drain_some found, ih]
    obtain ⟨rfl, free⟩ := nextLine_iff.mp found
    rw [List.splitOn_append_cons_self_of_not_mem free, List.dropLast_cons_of_ne_nil (List.splitOn_ne_nil _ _)]

/-- Feeding piece by piece gives the lines of the whole. -/
theorem feed_feed (splitter : LineSplitter) (first second : List UInt8) :
    (splitter.feed (first ++ second)) =
      ((splitter.feed first).1 ++ ((splitter.feed first).2.feed second).1,
        ((splitter.feed first).2.feed second).2) := by
  simp only [LineSplitter.feed]
  rw [← List.append_assoc, lineFraming.drain_append, List.map_append]

theorem feed_new (content : List UInt8) :
    (LineSplitter.new.feed content).1 = completeLines content := by
  simp only [LineSplitter.feed, LineSplitter.new, List.nil_append, completeLines, drain_lines]

example : (LineSplitter.new.feed [104, 105, 13, 10, 33]).1 = ["hi"] := by decide

end SkyDaemon.Runtime
