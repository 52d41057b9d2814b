import Mathlib.Data.List.DropRight
import SkyDaemon.Core.Tail
import SkyDaemon.Foundation.BufRead

/-! `skyperf_core::tail::last_n_lines`: a window of lines that slides over the input. The window is
allocated at its full length before the first line is read. -/
namespace SkyDaemon.Core
open Transition
open BufReader (readUntil remaining readUntil_remaining readUntil_takes Delivers)

/-! ## The loop -/

/-- The number of bytes, the line and the reader behind it. -/
def readLine (reader : BufReader UInt8) : Except String (Nat × String × BufReader UInt8) := do
  let (bytes, after) ← readUntil isNewline [] reader.buffer reader.reads
  match Text.fromUtf8 bytes with
  | none => .error "stream did not contain valid UTF-8"
  | some line => .ok (bytes.length, line, after)

theorem readLine_eq_ok : readLine reader = .ok (bytesRead, line, after) ↔
    readUntil isNewline [] reader.buffer reader.reads = .ok (Text.bytes line, after) ∧
      bytesRead = (Text.bytes line).length := by
  unfold readLine
  cases readUntil isNewline [] reader.buffer reader.reads with
  | error message => simp [bind, Except.bind]
  | ok result =>
    obtain ⟨bytes, rest⟩ := result
    change (match Text.fromUtf8 bytes with
      | none => Except.error "stream did not contain valid UTF-8"
      | some line => .ok (bytes.length, line, rest)) = .ok (bytesRead, line, after) ↔ _
    constructor
    · intro decoded
      split at decoded
      · cases decoded
      · rename_i found
        cases decoded
        rw [Text.bytes_of_fromUtf8 found]
        exact ⟨rfl, rfl⟩
    · rintro ⟨same, rfl⟩
      cases same
      rw [Text.fromUtf8_eq_some_iff.mpr rfl]

/-- The statements of the loop between which the window changes. -/
inductive Stage where
  | reading
  | popping (line : String)
  | pushing (line : String)
  deriving DecidableEq, Repr

structure LastLines where
  buf : BufReader UInt8
  window : List String
  stage : Stage
  deriving DecidableEq, Repr

namespace LastLines

def begin (reads : List (ReadAnswer UInt8)) : LastLines := ⟨⟨[], reads⟩, [], .reading⟩

/-- One statement of the loop, or what the function returns. -/
def advance (n : Nat) (state : LastLines) : LastLines ⊕ Except String (List String) :=
  match state.stage with
  | .reading =>
      match readLine state.buf with
      | .error message => .inr (.error message)
      | .ok (bytesRead, line, buf) =>
          if bytesRead = 0 then .inr (.ok state.window)
          else .inl { state with buf := buf, stage := .popping (stripNewline line) }
  | .popping line => .inl { state with
      window := if state.window.length = n then state.window.tail else state.window
      stage := .pushing line }
  | .pushing line => .inl { state with
      window := if n > 0 then state.window ++ [line] else state.window
      stage := .reading }

/-- What one statement can do. -/
inductive Advances (n : Nat) : LastLines → LastLines → Prop where
  | read (taken : readLine reader = .ok (bytesRead, line, after)) (some : bytesRead ≠ 0) :
      Advances n ⟨reader, shown, .reading⟩ ⟨after, shown, .popping (stripNewline line)⟩
  | pop : Advances n ⟨reader, shown, .popping line⟩
      ⟨reader, if shown.length = n then shown.tail else shown, .pushing line⟩
  | push : Advances n ⟨reader, shown, .pushing line⟩ ⟨reader, if n > 0 then shown ++ [line] else shown, .reading⟩

theorem advances (advanced : advance n state = .inl next) : Advances n state next := by
  obtain ⟨reader, shown, stage⟩ := state
  cases stage with
  | reading =>
    rw [advance] at advanced
    dsimp only at advanced
    split at advanced
    · cases advanced
    · rename_i taken
      split at advanced
      · cases advanced
      · rename_i some
        cases advanced
        exact .read taken some
  | popping line =>
    cases advanced
    exact .pop
  | pushing line =>
    cases advanced
    exact .push

/-- What is left to read counts for the statements of a turn. -/
def measure (state : LastLines) : Nat :=
  3 * state.buf.remaining + match state.stage with
    | .reading => 0
    | .popping _ => 2
    | .pushing _ => 1

theorem advance_measure (advanced : advance n state = .inl next) : next.measure < state.measure := by
  cases advances advanced with
  | read taken some =>
    obtain ⟨read, rfl⟩ := readLine_eq_ok.mp taken
    have shorter := readUntil_remaining read
    simp only [measure, remaining, List.length_nil] at shorter ⊢
    omega
  | pop => simp [measure]
  | push => simp [measure]

def run (n : Nat) (state : LastLines) : Except String (List String) :=
  match _ : state.advance n with
  | .inr result => result
  | .inl next => run n next
termination_by state.measure
decreasing_by exact advance_measure ‹_›

def Steps (n : Nat) (state : LastLines) (_ : Unit) (next : LastLines) : Prop := state.advance n = .inl next

end LastLines

/-- The size of a `String` in bytes. -/
def stringSize : Nat := 24

/-- The most bytes that a collection can allocate. -/
def isizeMax : Nat := 2 ^ 63 - 1

inductive Outcome where
  | panicked (message : String)
  /-- The process ends. -/
  | aborted (message : String)
  | returned (result : Except String (List String))

/-- `VecDeque::with_capacity(n)`, for an allocator that grants some sizes and refuses others; without a
capacity it is not asked. -/
def withCapacity (grants : Nat → Bool) (n : Nat) (rest : Except String (List String)) : Outcome :=
  if n * stringSize > isizeMax then .panicked "capacity overflow"
  else if n ≠ 0 ∧ grants (n * stringSize) = false then
    .aborted ("memory allocation of " ++ toString (n * stringSize) ++ " bytes failed")
  else .returned rest

def lastNLines (grants : Nat → Bool) (reads : List (ReadAnswer UInt8)) (n : UInt64) : Outcome :=
  withCapacity grants n.toNat ((LastLines.begin reads).run n.toNat)

def defaultTailLines : UInt64 := 200

/-- The file as it was opened. -/
def readLastLines (grants : Nat → Bool) (file : Except String (List (ReadAnswer UInt8))) : Outcome :=
  match file with
  | .error message => .returned (.error message)
  | .ok reads => lastNLines grants reads defaultTailLines

/-! ## The reference -/

/-- A terminated piece without one carriage return at its end. -/
def withoutReturn (piece : List Char) : List Char := if piece.getLast? = some '\r' then piece.dropLast else piece

/-- The pieces between the newlines; one without a newline behind it counts unless it is empty. -/
def linesOf (text : String) : List String :=
  let pieces := text.toList.splitOn '\n'
  (pieces.dropLast.map withoutReturn ++ pieces.getLast?.toList.filter (· ≠ [])).map String.ofList

theorem linesOf_empty : linesOf "" = [] := by decide

theorem linesOf_unterminated (free : '\n' ∉ text.toList) (some : text ≠ "") : linesOf text = [text] := by
  have kept : text.toList ≠ [] := fun empty => some (String.toList_eq_nil_iff.mp empty)
  rw [linesOf, List.splitOn_eq_singleton free]
  simp [kept]

theorem linesOf_terminated (front back : String) (free : '\n' ∉ front.toList) :
    linesOf (front ++ "\n" ++ back) = stripNewline (front ++ "\n") :: linesOf back := by
  have first : (front ++ "\n" ++ back).toList.splitOn '\n' = front.toList :: back.toList.splitOn '\n' := by
    rw [String.toList_append, String.toList_append, List.append_assoc]
    exact List.splitOn_append_cons_self_of_not_mem free _
  have stripped : stripNewline (front ++ "\n") = String.ofList (withoutReturn front.toList) := by
    rw [stripNewline, if_pos (by simp), withoutReturn]
    dsimp only
    rw [String.toList_append, show "\n".toList = ['\n'] from rfl, List.dropLast_concat]
    split <;> rfl
  have more : back.toList.splitOn '\n' ≠ [] := List.splitOn_ne_nil _ _
  rw [linesOf, first, stripped, linesOf, List.dropLast_cons_of_ne_nil more, List.getLast?_cons_of_ne_nil more]
  rfl

/-- What `read_line` takes of a text is its first line. -/
inductive FirstLine : String → String → String → Prop where
  | none : FirstLine "" "" ""
  | terminated (free : '\n' ∉ front.toList) (back : String) : FirstLine (front ++ "\n" ++ back) (front ++ "\n") back
  | unterminated (free : '\n' ∉ text.toList) (some : text ≠ "") : FirstLine text text ""

theorem readLine_first {reader : BufReader UInt8} (holds : reader.Holds (Text.bytes text)) :
    ∃ line back after, readLine reader = .ok ((Text.bytes line).length, line, after) ∧
      FirstLine text line back ∧ after.Holds (Text.bytes back) := by
  have newline_iff (text : String) : newline ∈ Text.bytes text ↔ '\n' ∈ text.toList :=
    Text.mem_bytes (c := '\n') (by decide) text
  obtain ⟨later, delivers, whole⟩ := holds
  obtain ⟨taken, rest, after, read, takes, holds⟩ := @readUntil_takes _ isNewline [] reader.buffer _ _ delivers
  rw [whole] at takes
  generalize input : Text.bytes text = bytes at takes
  cases takes with
  | @line front last _ free closes =>
    obtain rfl : last = newline := by simpa [isNewline] using closes
    obtain ⟨before, rfl⟩ := Text.bytes_before_ascii (c := '\n') (by decide) input
    have line : Text.bytes (before ++ "\n") = Text.bytes before ++ [newline] := Text.bytes_append _ _
    have split : Text.bytes text = Text.bytes (before ++ "\n") ++ rest := by
      rw [input, line, List.append_assoc, List.singleton_append]
    obtain ⟨back, rfl, rfl⟩ := Text.bytes_eq_append split
    rw [← line] at read
    refine ⟨before ++ "\n", back, after, readLine_eq_ok.mpr ⟨read, rfl⟩, .terminated ?_ back, holds⟩
    rw [← newline_iff]
    exact fun member => absurd (free newline member) (by decide)
  | all free =>
    subst input
    have single : '\n' ∉ text.toList := by
      rw [← newline_iff]
      exact fun member => absurd (free newline member) (by decide)
    refine ⟨text, "", after, readLine_eq_ok.mpr ⟨read, rfl⟩, ?_, holds⟩
    by_cases empty : text = ""
    · rw [empty]
      exact .none
    · exact .unterminated single empty

/-! ## The window -/

theorem rtake_of_le {list : List α} (short : list.length ≤ n) : list.rtake n = list := by
  rw [List.rtake, Nat.sub_eq_zero_of_le short, List.drop_zero]

theorem rtake_append_rtake (front back : List α) : (front.rtake n ++ back).rtake n = (front ++ back).rtake n := by
  by_cases short : front.length ≤ n
  · rw [rtake_of_le short]
  · have dropped : front.rtake n ++ back = (front ++ back).drop (front.length - n) :=
      (List.drop_append_of_le_length (Nat.sub_le _ _)).symm
    rw [dropped, List.rtake, List.rtake, List.drop_drop, List.length_drop, List.length_append]
    congr 1
    omega

namespace LastLines

theorem run_of_inl (advanced : advance n state = .inl next) : run n state = run n next := by
  rw [run]
  split <;> simp_all

theorem run_of_inr (advanced : advance n state = .inr result) : run n state = result := by
  rw [run]
  split <;> simp_all

/-- The oldest line leaves a full window before the next one enters. -/
theorem run_popping {shown : List String} (bounded : shown.length ≤ n) :
    run n ⟨reader, shown, .popping line⟩ = run n ⟨reader, (shown ++ [line]).rtake n, .reading⟩ := by
  rw [run_of_inl rfl, run_of_inl rfl]
  dsimp only
  congr 2
  rcases Nat.lt_or_eq_of_le bounded with room | full
  · have short : (shown ++ [line]).length ≤ n := by rw [List.length_append]; exact room
    rw [if_neg room.ne, if_pos (Nat.zero_lt_of_lt room), rtake_of_le short]
  · rw [if_pos full]
    cases shown with
    | nil =>
      cases full
      rfl
    | cons oldest others =>
      rw [if_pos (by rw [← full]; exact Nat.succ_pos _), ← full, List.rtake]
      simp

/-- From the head of the loop, the last of the lines in the window and to come are returned. -/
theorem run_reading {reader : BufReader UInt8} {shown : List String} (holds : reader.Holds (Text.bytes text))
    (bounded : shown.length ≤ n) : run n ⟨reader, shown, .reading⟩ = .ok ((shown ++ linesOf text).rtake n) := by
  induction length : text.length using Nat.strongRecOn generalizing text reader shown with
  | ind length ih =>
    obtain ⟨line, back, after, read, first, later⟩ := readLine_first holds
    have turn (some : line ≠ "") (shorter : back.length < text.length)
        (lines : linesOf text = stripNewline line :: linesOf back) :
        run n ⟨reader, shown, .reading⟩ = .ok ((shown ++ linesOf text).rtake n) := by
      have taken : advance n ⟨reader, shown, .reading⟩ = .inl ⟨after, shown, .popping (stripNewline line)⟩ := by
        have counted : (Text.bytes line).length ≠ 0 := fun zero =>
          some (Text.bytes_injective (List.length_eq_zero_iff.mp zero))
        rw [advance]
        dsimp only
        rw [read]
        exact if_neg counted
      have kept : ((shown ++ [stripNewline line]).rtake n).length ≤ n := by
        rw [List.rtake, List.length_drop]
        omega
      rw [run_of_inl taken, run_popping bounded, ih back.length (length ▸ shorter) later kept rfl, rtake_append_rtake,
        lines, List.append_assoc, List.singleton_append]
    cases first with
    | none =>
      have ended : advance n ⟨reader, shown, .reading⟩ = .inr (.ok shown) := by
        rw [advance]
        dsimp only
        rw [read]
        rfl
      rw [run_of_inr ended, linesOf_empty, List.append_nil, rtake_of_le bounded]
    | @terminated front free =>
      refine turn (fun empty => ?_) ?_ (linesOf_terminated front back free)
      · simpa using congrArg String.length empty
      · simp only [String.length_append]
        have newline : "\n".length = 1 := rfl
        omega
    | unterminated free nonempty =>
      refine turn nonempty ?_ ?_
      · exact Nat.pos_of_ne_zero fun zero => nonempty (String.length_eq_zero_iff.mp zero)
      · have open' : text.toList.getLast? ≠ some '\n' := fun last => free (List.mem_of_getLast? last)
        rw [linesOf_unterminated free nonempty, linesOf_empty, stripNewline, if_neg open']

/-- There is room for the line that enters. -/
def Bounded (n : Nat) (state : LastLines) : Prop :=
  match state.stage with
  | .reading | .popping _ => state.window.length ≤ n
  | .pushing _ => state.window.length ≤ n - 1

theorem Bounded.step (bounded : Bounded n state) (stepped : Steps n state label next) : Bounded n next := by
  cases advances stepped with
  | read taken some => exact bounded
  | @pop reader shown line =>
    change shown.length ≤ n at bounded
    change (if shown.length = n then shown.tail else shown).length ≤ n - 1
    split
    · rw [List.length_tail]
      omega
    · omega
  | @push reader shown line =>
    change shown.length ≤ n - 1 at bounded
    change (if n > 0 then shown ++ [line] else shown).length ≤ n
    split
    · rw [List.length_append, List.length_singleton]
      omega
    · omega

theorem window_bounded (ran : Run (Steps n) (begin reads) labels state) : state.window.length ≤ n := by
  have bounded : Bounded n state := ran.invariant (fun before stepped => before.step stepped) (Nat.zero_le n)
  unfold Bounded at bounded
  split at bounded
  · exact bounded
  · exact bounded
  · exact bounded.trans (Nat.sub_le n 1)

end LastLines

/-- The window can be allocated: it is within the largest size, and the allocator grants it. -/
def Allocates (grants : Nat → Bool) (n : Nat) : Prop := n * 24 < 2 ^ 63 ∧ (n = 0 ∨ grants (n * 24) = true)

theorem withCapacity_eq_returned (grants : Nat → Bool) (n : Nat) (rest result : Except String (List String)) :
    withCapacity grants n rest = .returned result ↔ Allocates grants n ∧ rest = result := by
  have limit : n * stringSize > isizeMax ↔ ¬ n * 24 < 2 ^ 63 := by
    unfold stringSize isizeMax
    omega
  have refused : (n ≠ 0 ∧ grants (n * stringSize) = false) ↔ ¬ (n = 0 ∨ grants (n * 24) = true) := by
    rw [not_or, Bool.not_eq_true]
    rfl
  unfold withCapacity Allocates
  split
  · exact iff_of_false nofun fun fits => limit.mp ‹_› fits.1.1
  · split
    · exact iff_of_false nofun fun fits => refused.mp ‹_› fits.1.2
    · have small := not_not.mp (mt limit.mpr ‹_›)
      have granted := not_not.mp (mt refused.mpr ‹_›)
      rw [Outcome.returned.injEq, and_iff_right ⟨small, granted⟩]

theorem lastNLines_returns (delivers : Delivers reads (Text.bytes text)) (room : Allocates grants n.toNat) :
    lastNLines grants reads n = .returned (.ok ((linesOf text).rtake n.toNat)) := by
  have holds : (⟨[], reads⟩ : BufReader UInt8).Holds (Text.bytes text) := ⟨_, delivers, rfl⟩
  refine (withCapacity_eq_returned _ _ _ _).mpr ⟨room, ?_⟩
  rw [LastLines.begin, LastLines.run_reading holds (Nat.zero_le _), List.nil_append]

/-- The wrapper's window has 4800 bytes. -/
theorem readLastLines_returns (delivers : Delivers reads (Text.bytes text)) (granted : grants 4800 = true) :
    readLastLines grants (.ok reads) = .returned (.ok ((linesOf text).rtake 200)) :=
  lastNLines_returns delivers ⟨by decide, .inr granted⟩

/-- However a text is delivered, its last lines are returned from a window of that length, if a
window of that length can be allocated. -/
theorem last_n_lines_exact_iff (delivers : Delivers reads (Text.bytes text)) (grants : Nat → Bool) (n : UInt64) :
    (lastNLines grants reads n = .returned (.ok ((linesOf text).rtake (min n.toNat (linesOf text).length))) ∧
      ∀ labels state, Run (LastLines.Steps n.toNat) (LastLines.begin reads) labels state →
        state.window.length ≤ n.toNat) ↔ n.toNat * 24 < 2 ^ 63 ∧ (n.toNat = 0 ∨ grants (n.toNat * 24) = true) := by
  have last : (linesOf text).rtake (min n.toNat (linesOf text).length) = (linesOf text).rtake n.toNat := by
    rw [List.rtake, List.rtake]
    congr 1
    omega
  rw [last]
  constructor
  · rintro ⟨returned, -⟩
    exact ((withCapacity_eq_returned _ _ _ _).mp returned).1
  · intro room
    exact ⟨lastNLines_returns delivers room, fun labels state => LastLines.window_bounded⟩

def sampleText : String := "a\r\n\nb\r"

/-- A line ending is split between two reads. -/
def sampleReads : List (ReadAnswer UInt8) :=
  [.piece (Text.bytes "a\r"), .interrupted, .piece (Text.bytes "\n\nb"), .piece (Text.bytes "\r"), .piece []]

theorem sampleReads_deliver : Delivers sampleReads (Text.bytes sampleText) := by
  have whole : Text.bytes sampleText = Text.bytes "a\r" ++ (Text.bytes "\n\nb" ++ (Text.bytes "\r" ++ [])) := by
    decide +kernel
  rw [whole]
  exact .piece (by decide) (.interrupted (.piece (by decide) (.piece (by decide) (.ended .atEnd))))

/-- A machine with 32 GiB. -/
def sampleGrants (bytes : Nat) : Bool := decide (bytes ≤ 2 ^ 35)

theorem sample_last_lines : lastNLines sampleGrants sampleReads 2 = .returned (.ok ["", "b\r"]) := by
  have exact' := ((last_n_lines_exact_iff sampleReads_deliver sampleGrants 2).mpr (by decide)).1
  have lines : (linesOf sampleText).rtake (min (2 : UInt64).toNat (linesOf sampleText).length) = ["", "b\r"] := by
    decide +kernel
  rw [exact', lines]

/-- The largest argument there is. -/
def usizeMax : UInt64 := 18446744073709551615

/-- No machine has room for the largest window, and this one has none for a much smaller one. -/
theorem largest_window_panics : Delivers sampleReads (Text.bytes sampleText) ∧
    (∀ grants, lastNLines grants sampleReads usizeMax = .panicked "capacity overflow" ∧
      lastNLines grants sampleReads usizeMax ≠
        .returned (.ok ((linesOf sampleText).rtake (min usizeMax.toNat (linesOf sampleText).length)))) ∧
    lastNLines sampleGrants sampleReads 384307168202282325 =
      .aborted "memory allocation of 9223372036854775800 bytes failed" := by
  refine ⟨sampleReads_deliver, fun grants => ?_, ?_⟩
  · have panics : lastNLines grants sampleReads usizeMax = .panicked "capacity overflow" := by
      rw [lastNLines, withCapacity]
      exact if_pos (by decide)
    refine ⟨panics, ?_⟩
    rw [panics]
    exact nofun
  · rw [lastNLines, withCapacity, if_neg (by decide), if_pos (by decide)]
    exact congrArg Outcome.aborted (by decide +kernel)

end SkyDaemon.Core
