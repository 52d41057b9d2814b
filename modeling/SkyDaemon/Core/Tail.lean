import SkyDaemon.Foundation.Segments
import SkyDaemon.Foundation.Text
import SkyDaemon.Foundation.Transition

/-! `skyperf_core::tail::follow`, next to the writer of the file it polls. The follower takes one
step at a time (a length, an open, one read of the buffered reader, one look for a newline in what
is buffered), and the writer may append between any two of them. -/
namespace SkyDaemon.Core
open Transition

def newline : UInt8 := 10
def carriageReturn : UInt8 := 13

def isNewline (byte : UInt8) : Bool := byte == newline

def stripNewline (line : String) : String :=
  if line.toList.getLast? = some '\n' then
    let rest := line.toList.dropLast
    if rest.getLast? = some '\r' then String.ofList rest.dropLast else String.ofList rest
  else line

/-! ## The follower -/

/-- A buffered reader on the open file, inside `read_line`. -/
structure Reader where
  /-- Where the next read of the file begins. -/
  offset : Nat
  /-- Read and not yet looked at. -/
  buffer : List UInt8
  /-- What `read_line` has taken so far. -/
  line : List UInt8
  deriving DecidableEq, Repr

inductive Phase where
  /-- At the head of the loop, between two polls. -/
  | waiting
  /-- The length has told that there is something to read. -/
  | opening
  | reading (reader : Reader)
  | returned (result : Except String Unit)
  deriving DecidableEq, Repr

structure Follow where
  file : List UInt8
  phase : Phase
  pos : Nat
  /-- What `on_line` was called with. -/
  lines : List String
  /-- The offset from which the present lines are counted: the first length, or 0 once a truncation
  was observed. This field and those behind it only record what happened. -/
  start : Nat
  /-- How many calls of `on_line` came before the last observed truncation. -/
  earlier : Nat
  /-- What the file held before a truncation that no poll has observed yet. -/
  lost : Option (List UInt8)
  /-- What the file held when its end was last looked at. -/
  seen : List UInt8
  deriving DecidableEq, Repr

/-- What the surroundings decide in one step of the follower. -/
structure Choice where
  stop : Bool := false
  gone : Bool := false
  fault : Option String := none
  /-- A read gives one byte more than this, as far as there are so many. -/
  amount : Nat := 0
  deriving DecidableEq, Repr

inductive Event where
  | append (content : List UInt8)
  | truncate (length : Nat)
  | advance (choice : Choice)
  deriving DecidableEq, Repr

/-- The capacity of a `BufReader`. -/
def bufferSize : Nat := 8 * 1024

namespace Follow

/-- After the first length was taken. -/
def begin (file : List UInt8) : Follow where
  file := file
  phase := .waiting
  pos := file.length
  lines := []
  start := file.length
  earlier := 0
  lost := none
  seen := file

/-- Back to the beginning of a file that has become shorter. -/
def restart (follow : Follow) : Follow :=
  { follow with pos := 0, start := 0, earlier := follow.lines.length, lost := none }

/-- One turn of the outer loop up to the comparison of the lengths. -/
def poll (follow : Follow) (choice : Choice) : Follow :=
  if choice.stop || choice.gone then { follow with phase := .returned (.ok ()) }
  else
    let follow := if follow.file.length < follow.pos then follow.restart else follow
    if follow.file.length = follow.pos then { follow with seen := follow.file }
    else { follow with phase := .opening }

def fail (follow : Follow) (message : String) : Follow := { follow with phase := .returned (.error message) }

/-- `read_line` has returned with what it took. -/
def endLine (follow : Follow) (reader : Reader) : Follow :=
  match Text.fromUtf8 reader.line with
  | none => follow.fail "stream did not contain valid UTF-8"
  | some text =>
      if reader.line.length = 0 then { follow with phase := .waiting }
      else if text.toList.getLast? ≠ some '\n' then { follow with phase := .waiting }
      else { follow with
        lines := follow.lines ++ [stripNewline text]
        pos := follow.pos + reader.line.length
        phase := .reading { reader with line := [] } }

/-- One turn of the loop in `read_line`: the buffer is filled if it is empty, and searched if it is not. -/
def read (follow : Follow) (reader : Reader) (choice : Choice) : Follow :=
  match reader.buffer.span (!isNewline ·) with
  | ([], []) =>
      match choice.fault with
      | some message => follow.fail message
      | none =>
          match follow.file.drop reader.offset with
          | [] => { follow with seen := follow.file }.endLine reader
          | available =>
              let chunk := available.take (choice.amount % bufferSize + 1)
              { follow with phase := .reading { reader with offset := reader.offset + chunk.length, buffer := chunk } }
  | (front, []) => { follow with phase := .reading { reader with buffer := [], line := reader.line ++ front } }
  | (front, last :: rest) => follow.endLine { reader with buffer := rest, line := reader.line ++ front ++ [last] }

def advance (follow : Follow) (choice : Choice) : Option Follow :=
  match follow.phase with
  | .waiting => some (follow.poll choice)
  | .opening =>
      match choice.fault with
      | some message => some (follow.fail message)
      | none => some { follow with phase := .reading ⟨follow.pos, [], []⟩ }
  | .reading reader => some (follow.read reader choice)
  | .returned _ => none

def step (follow : Follow) : Event → Option Follow
  | .append content => some { follow with file := follow.file ++ content }
  | .truncate length => some { follow with
      file := follow.file.take length
      lost := follow.lost <|> some follow.file }
  | .advance choice => follow.advance choice

def Steps (follow : Follow) (event : Event) (after : Follow) : Prop := follow.step event = some after

/-- A truncation comes between two polls, and the next poll finds the file shorter than `pos`. -/
def observed (follow : Follow) : Event → Bool
  | .append _ => true
  | .truncate _ => follow.phase == .waiting
  | .advance choice => choice.stop || choice.gone || follow.lost.isNone || follow.file.length < follow.pos

/-! ## What a step can do -/

/-- The outcomes of one turn in `read_line`. -/
inductive Reads (follow : Follow) (reader : Reader) (choice : Choice) : Follow → Prop where
  | fault (failed : choice.fault = some message) : Reads follow reader choice (follow.fail message)
  | ended (empty : reader.buffer = []) (atEnd : follow.file.drop reader.offset = []) :
      Reads follow reader choice ({ follow with seen := follow.file }.endLine reader)
  | filled (empty : reader.buffer = []) (available : follow.file.drop reader.offset = chunk ++ rest) :
      Reads follow reader choice
        { follow with phase := .reading { reader with offset := reader.offset + chunk.length, buffer := chunk } }
  | taken (free : newline ∉ reader.buffer) : Reads follow reader choice
      { follow with phase := .reading { reader with buffer := [], line := reader.line ++ reader.buffer } }
  | found (split : reader.buffer = front ++ newline :: rest) (free : newline ∉ front) : Reads follow reader choice
      (follow.endLine { reader with buffer := rest, line := reader.line ++ front ++ [newline] })

/-- The search stops at the first newline. -/
theorem span_newline {buffer front rest : List UInt8} (searched : buffer.span (!isNewline ·) = (front, rest)) :
    buffer = front ++ rest ∧ newline ∉ front ∧ ∀ last tail, rest = last :: tail → last = newline := by
  obtain ⟨whole, free, stops⟩ := span_ends searched
  refine ⟨whole, fun member => ?_, fun last tail stopped => ?_⟩
  · exact absurd (free newline member) (by decide)
  · simpa [isNewline] using stops last tail stopped

theorem read_reads (follow : Follow) (reader : Reader) (choice : Choice) :
    Reads follow reader choice (follow.read reader choice) := by
  unfold read
  split
  · rename_i searched
    have empty : reader.buffer = [] := (span_newline searched).1
    split
    · exact .fault ‹_›
    · split
      · exact .ended empty ‹_›
      · exact .filled empty (List.take_append_drop _ _).symm
  · rename_i front _ searched
    obtain ⟨whole, free, -⟩ := span_newline searched
    rw [List.append_nil] at whole
    rw [← whole] at free ⊢
    exact .taken free
  · rename_i front last rest searched
    obtain ⟨split, free, stops⟩ := span_newline searched
    cases stops last rest rfl
    exact .found split free

/-- `read_line` has failed, stopped at the end of the file, or taken a whole line. -/
theorem endLine_cases (follow : Follow) (reader : Reader) :
    (Text.fromUtf8 reader.line = none ∧
      follow.endLine reader = follow.fail "stream did not contain valid UTF-8") ∨
    ∃ text, reader.line = Text.bytes text ∧
      (reader.line.getLast? ≠ some newline ∧ follow.endLine reader = { follow with phase := .waiting } ∨
        reader.line.getLast? = some newline ∧ text.toList.getLast? = some '\n' ∧ follow.endLine reader =
          { follow with
            lines := follow.lines ++ [stripNewline text]
            pos := follow.pos + reader.line.length
            phase := .reading { reader with line := [] } }) := by
  unfold endLine
  split
  · exact .inl ⟨‹_›, rfl⟩
  · rename_i text decoded
    have same := Text.bytes_of_fromUtf8 decoded
    have ends : reader.line.getLast? = some newline ↔ text.toList.getLast? = some '\n' := by
      rw [same]
      exact Text.getLast?_bytes (c := '\n') (by decide) text
    refine .inr ⟨text, same, ?_⟩
    split
    · rename_i empty
      rw [List.length_eq_zero_iff] at empty
      exact .inl ⟨by simp [empty], rfl⟩
    · split
      · rename_i other
        exact .inl ⟨fun closed => other (ends.mp closed), rfl⟩
      · rename_i closed
        rw [not_not] at closed
        exact .inr ⟨ends.mpr closed, closed, rfl⟩

/-! ## What was delivered -/

end Follow

/-- A line without its line ending, a newline or a carriage return and a newline. -/
def withoutEnding (line : List UInt8) : List UInt8 :=
  if line.dropLast.getLast? = some carriageReturn then line.dropLast.dropLast else line.dropLast

theorem bytes_stripNewline (ends : text.toList.getLast? = some '\n') :
    Text.bytes (stripNewline text) = withoutEnding (Text.bytes text) := by
  have front : Text.bytes (String.ofList text.toList.dropLast) = (Text.bytes text).dropLast := by
    rw [Text.bytes_dropLast (c := '\n') (by decide) ends, String.ofList_toList]
  have carriage := Text.getLast?_bytes (c := '\r') (by decide) (String.ofList text.toList.dropLast)
  rw [front, String.toList_ofList] at carriage
  rw [stripNewline, if_pos ends, withoutEnding]
  by_cases returned : text.toList.dropLast.getLast? = some '\r'
  · dsimp only
    rw [if_pos returned, Text.bytes_dropLast (c := '\r') (by decide) returned, front]
    exact (if_pos (carriage.mpr returned)).symm
  · dsimp only
    rw [if_neg returned, front]
    exact (if_neg fun same => returned (carriage.mp same)).symm

namespace Follow

/-- What the file has held since the present start, as far as it was read. -/
def text (follow : Follow) : List UInt8 := follow.lost.getD follow.file

/-- The bytes between the starting offset and `pos`. -/
def consumed (follow : Follow) : List UInt8 := (follow.text.take follow.pos).drop follow.start

/-- The lines delivered since the present start. -/
def present (follow : Follow) : List String := follow.lines.drop follow.earlier

structure Accounts (follow : Follow) : Prop where
  started : follow.start ≤ follow.pos
  inside : follow.pos ≤ follow.text.length
  counted : follow.earlier ≤ follow.lines.length
  closed : follow.pos = follow.start ∨ follow.consumed.getLast? = some newline
  lines : follow.present.map Text.bytes = (segments isNewline [] follow.consumed).map withoutEnding

/-- What holds besides in each phase: a poll has ended past every newline it could see, and the
reader stands behind `pos` with the line it is at. -/
def InPhase (follow : Follow) : Prop :=
  match follow.phase with
  | .waiting => newline ∉ follow.seen.drop follow.pos
  | .opening => follow.lost = none
  | .reading reader => follow.lost = none ∧ newline ∉ reader.line ∧
      reader.offset = follow.pos + reader.line.length + reader.buffer.length ∧
      ∃ rest, follow.file.drop follow.pos = reader.line ++ reader.buffer ++ rest
  | .returned _ => True

theorem accounts_restart (follow : Follow) : follow.restart.Accounts where
  started := Nat.le_refl 0
  inside := Nat.zero_le _
  counted := Nat.le_refl _
  closed := .inl rfl
  lines := by simp [present, restart, consumed, segments]

theorem accounts_begin (file : List UInt8) : (begin file).Accounts where
  started := Nat.le_refl _
  inside := Nat.le_refl _
  counted := Nat.le_refl _
  closed := .inl rfl
  lines := by simp [present, begin, consumed, text, segments]

/-- Only the file has changed, behind `pos`. -/
theorem Accounts.of_text {follow after : Follow} (accounts : follow.Accounts)
    (same : after.pos = follow.pos ∧ after.lines = follow.lines ∧ after.start = follow.start ∧
      after.earlier = follow.earlier) (grows : follow.text <+: after.text) : after.Accounts := by
  obtain ⟨pos, lines, start, earlier⟩ := same
  obtain ⟨more, extended⟩ := grows
  have consumed : after.consumed = follow.consumed := by
    rw [Follow.consumed, Follow.consumed, pos, start, ← extended, List.take_append_of_le_length accounts.inside]
  constructor
  · rw [start, pos]
    exact accounts.started
  · rw [pos, ← extended, List.length_append]
    exact accounts.inside.trans (Nat.le_add_right _ _)
  · rw [earlier, lines]
    exact accounts.counted
  · rw [pos, start, consumed]
    exact accounts.closed
  · rw [present, lines, earlier, consumed]
    exact accounts.lines

theorem text_of_untouched {follow : Follow} (untouched : follow.lost = none) : follow.text = follow.file := by
  rw [text, untouched, Option.getD_none]

theorem Accounts.inside_file {follow : Follow} (accounts : follow.Accounts) (untouched : follow.lost = none) :
    follow.pos ≤ follow.file.length := text_of_untouched untouched ▸ accounts.inside

theorem segments_line (single : newline ∉ front) :
    segments isNewline [] (front ++ [newline]) = [front ++ [newline]] := by
  rw [segments_first (fun byte member => ?_) (by decide)]
  · rfl
  · simpa [isNewline] using fun same : byte = newline => single (same ▸ member)

/-- What comes next begins a line. -/
theorem Accounts.cut {follow : Follow} (accounts : follow.Accounts) (next : List UInt8) :
    segments isNewline [] (follow.consumed ++ next) =
      segments isNewline [] follow.consumed ++ segments isNewline [] next := by
  rcases accounts.closed with none | closed
  · have empty : follow.consumed = [] := by rw [consumed, none, List.drop_take_self]
    rw [empty]
    rfl
  · obtain ⟨before, shape⟩ := List.getLast?_eq_some_iff.mp closed
    rw [shape, segments_append (by decide)]

/-- A whole line is delivered as it is passed. -/
theorem Accounts.deliver {follow : Follow} (accounts : follow.Accounts) (untouched : follow.lost = none)
    {line : String} (ends : line.toList.getLast? = some '\n') (split : Text.bytes line = front ++ [newline])
    (single : newline ∉ front) (stands : follow.file.drop follow.pos = Text.bytes line ++ rest) (next : Phase) :
    Accounts { follow with
      lines := follow.lines ++ [stripNewline line], pos := follow.pos + (Text.bytes line).length, phase := next } := by
  have text := text_of_untouched untouched
  have inside := accounts.inside_file untouched
  have length : (follow.file.take follow.pos).length = follow.pos := by rw [List.length_take, Nat.min_eq_left inside]
  have passed : (follow.text.take (follow.pos + (Text.bytes line).length)).drop follow.start =
      follow.consumed ++ Text.bytes line := by
    rw [text, List.take_add, stands, List.take_left,
      List.drop_append_of_le_length (by rw [length]; exact accounts.started), consumed, text]
  constructor
  · exact accounts.started.trans (Nat.le_add_right _ _)
  · change follow.pos + (Text.bytes line).length ≤ follow.text.length
    have remaining := congrArg List.length stands
    rw [List.length_drop, List.length_append] at remaining
    rw [text]
    omega
  · exact accounts.counted.trans (by simp)
  · refine .inr ?_
    change ((follow.text.take (follow.pos + (Text.bytes line).length)).drop follow.start).getLast? = _
    rw [passed, split, ← List.append_assoc, List.getLast?_concat]
  · change ((follow.lines ++ [stripNewline line]).drop follow.earlier).map Text.bytes =
      (segments isNewline [] ((follow.text.take (follow.pos + (Text.bytes line).length)).drop follow.start)).map
        withoutEnding
    have alone : segments isNewline [] (Text.bytes line) = [Text.bytes line] := split ▸ segments_line single
    rw [List.drop_append_of_le_length accounts.counted, List.map_append, passed, accounts.cut, alone, List.map_append,
      ← accounts.lines, List.map_singleton, List.map_singleton, bytes_stripNewline ends]
    rfl

/-! ## The run -/

structure Sound (follow : Follow) : Prop where
  accounts : follow.Accounts
  inPhase : follow.InPhase

theorem sound_begin (file : List UInt8) : (begin file).Sound := by
  refine ⟨accounts_begin file, ?_⟩
  change newline ∉ file.drop file.length
  simp

/-- A change of the phase alone. -/
theorem Sound.enter {follow : Follow} (sound : follow.Sound) (phase : Phase)
    (inPhase : InPhase { follow with phase := phase }) : Sound { follow with phase := phase } :=
  ⟨sound.accounts.of_text ⟨rfl, rfl, rfl, rfl⟩ (List.prefix_refl _), inPhase⟩

theorem append_sound {follow : Follow} (sound : follow.Sound) (content : List UInt8) :
    Sound { follow with file := follow.file ++ content } := by
  obtain ⟨accounts, inPhase⟩ := sound
  constructor
  · refine accounts.of_text ⟨rfl, rfl, rfl, rfl⟩ ?_
    cases lost : follow.lost with
    | none => simp [text, lost]
    | some old => simp [text, lost]
  · cases phase : follow.phase with
    | waiting => simpa only [InPhase, phase] using inPhase
    | opening => simpa only [InPhase, phase] using inPhase
    | returned result => trivial
    | reading reader =>
      simp only [InPhase, phase] at inPhase ⊢
      obtain ⟨untouched, free, offset, rest, stands⟩ := inPhase
      refine ⟨untouched, free, offset, rest ++ content, ?_⟩
      rw [List.drop_append_of_le_length (accounts.inside_file untouched), stands, List.append_assoc _ rest]

theorem truncate_sound {follow : Follow} (sound : follow.Sound) (waiting : follow.phase = .waiting) (length : Nat) :
    Sound { follow with file := follow.file.take length, lost := follow.lost <|> some follow.file } := by
  obtain ⟨accounts, inPhase⟩ := sound
  constructor
  · refine accounts.of_text ⟨rfl, rfl, rfl, rfl⟩ ?_
    cases lost : follow.lost with
    | none => simp [text, lost]
    | some old => simp [text, lost]
  · simpa only [InPhase, waiting] using inPhase

/-- The length is `pos` and there is nothing new, or the file is opened. -/
theorem compare_sound {follow : Follow} (accounts : follow.Accounts) (waiting : follow.phase = .waiting)
    (untouched : follow.lost = none) :
    Sound (if follow.file.length = follow.pos then { follow with seen := follow.file }
      else { follow with phase := .opening }) := by
  have same {after : Follow} (pos : after.pos = follow.pos ∧ after.lines = follow.lines ∧ after.start = follow.start ∧
      after.earlier = follow.earlier) (text : after.text = follow.text) : after.Accounts :=
    accounts.of_text pos (text ▸ List.prefix_refl _)
  split
  · rename_i nothingNew
    refine ⟨same ⟨rfl, rfl, rfl, rfl⟩ rfl, ?_⟩
    simp [InPhase, waiting, ← nothingNew]
  · exact ⟨same ⟨rfl, rfl, rfl, rfl⟩ rfl, untouched⟩

theorem poll_sound {follow : Follow} (sound : follow.Sound) (waiting : follow.phase = .waiting) (choice : Choice)
    (observed : follow.observed (.advance choice) = true) : (follow.poll choice).Sound := by
  unfold poll
  split
  · exact sound.enter _ trivial
  · rename_i goesOn
    by_cases shorter : follow.file.length < follow.pos
    · simp only [shorter, if_true]
      exact compare_sound (accounts_restart follow) waiting rfl
    · have untouched : follow.lost = none := by simpa [Follow.observed, goesOn, shorter] using observed
      simp only [shorter, if_false]
      exact compare_sound sound.accounts waiting untouched

section Reading
variable {follow after : Follow} {reader : Reader} (sound : follow.Sound) (reading : follow.phase = .reading reader)
include sound reading

/-- The reader has everything up to its offset, and what it has not handed on stands behind `pos`. -/
theorem reading_stands : follow.lost = none ∧ newline ∉ reader.line ∧
    reader.offset = follow.pos + reader.line.length + reader.buffer.length ∧
    follow.file.drop follow.pos = reader.line ++ reader.buffer ++ follow.file.drop reader.offset := by
  have inPhase := sound.inPhase
  simp only [InPhase, reading] at inPhase
  obtain ⟨untouched, free, offset, rest, stands⟩ := inPhase
  have behind : follow.file.drop reader.offset = rest := by
    rw [offset, Nat.add_assoc, ← List.length_append, ← List.drop_drop, stands, List.drop_left]
  exact ⟨untouched, free, offset, behind ▸ stands⟩

theorem ended_sound (empty : reader.buffer = []) (atEnd : follow.file.drop reader.offset = []) :
    ({ follow with seen := follow.file }.endLine reader).Sound := by
  obtain ⟨-, free, -, stands⟩ := reading_stands sound reading
  rw [empty, atEnd, List.append_nil, List.append_nil] at stands
  have accounts {next : Phase} : Accounts { follow with seen := follow.file, phase := next } :=
    sound.accounts.of_text ⟨rfl, rfl, rfl, rfl⟩ (List.prefix_refl _)
  rcases endLine_cases { follow with seen := follow.file } reader with
    ⟨-, failed⟩ | ⟨text, -, ⟨-, ended⟩ | ⟨closed, -⟩⟩
  · rw [failed]
    exact ⟨accounts, trivial⟩
  · rw [ended]
    refine ⟨accounts, ?_⟩
    change newline ∉ follow.file.drop follow.pos
    rwa [stands]
  · exact absurd (List.mem_of_getLast? closed) free

theorem found_sound (split : reader.buffer = front ++ newline :: rest) (free : newline ∉ front) :
    (follow.endLine { reader with buffer := rest, line := reader.line ++ front ++ [newline] }).Sound := by
  obtain ⟨untouched, free', offset, stands⟩ := reading_stands sound reading
  rcases endLine_cases follow { reader with buffer := rest, line := reader.line ++ front ++ [newline] } with
    ⟨-, failed⟩ | ⟨text, same, ⟨other, -⟩ | ⟨-, ends, delivered⟩⟩
  · rw [failed]
    exact sound.enter _ trivial
  · exact absurd List.getLast?_concat other
  · have same : reader.line ++ front ++ [newline] = Text.bytes text := same
    have single : newline ∉ reader.line ++ front := by
      rw [List.mem_append, not_or]
      exact ⟨free', free⟩
    have stands : follow.file.drop follow.pos = Text.bytes text ++ (rest ++ follow.file.drop reader.offset) := by
      rw [stands, split, ← same]
      simp
    rw [delivered]
    dsimp only
    rw [same]
    refine ⟨sound.accounts.deliver untouched ends same.symm single stands _, untouched, List.not_mem_nil, ?_,
      follow.file.drop reader.offset, ?_⟩
    · change reader.offset = follow.pos + (Text.bytes text).length + 0 + rest.length
      rw [offset, split, ← same]
      simp
      omega
    · change follow.file.drop (follow.pos + (Text.bytes text).length) = [] ++ rest ++ follow.file.drop reader.offset
      rw [← List.drop_drop, stands, List.drop_left]
      rfl

theorem reads_sound {choice : Choice} (reads : Reads follow reader choice after) : after.Sound := by
  obtain ⟨untouched, free, offset, stands⟩ := reading_stands sound reading
  cases reads with
  | fault failed => exact sound.enter _ trivial
  | ended empty atEnd => exact ended_sound sound reading empty atEnd
  | filled empty available =>
    rw [empty, List.append_nil, available, ← List.append_assoc] at stands
    refine sound.enter _ ⟨untouched, free, ?_, _, stands⟩
    rw [offset, empty]
    rfl
  | taken free' =>
    refine sound.enter _ ⟨untouched, ?_, ?_, follow.file.drop reader.offset, ?_⟩
    · rw [List.mem_append, not_or]
      exact ⟨free, free'⟩
    · change reader.offset = follow.pos + (reader.line ++ reader.buffer).length + 0
      rw [offset, List.length_append, Nat.add_assoc]
      rfl
    · rw [stands]
      simp
  | found split free' => exact found_sound sound reading split free'

end Reading

theorem step_sound {follow after : Follow} (sound : follow.Sound)
    (stepped : Guarded Steps (fun follow event => follow.observed event = true) follow event after) : after.Sound := by
  obtain ⟨stepped, observed⟩ := stepped
  cases event with
  | append content =>
    cases stepped
    exact append_sound sound content
  | truncate length =>
    cases stepped
    exact truncate_sound sound (beq_iff_eq.mp observed) length
  | advance choice =>
    simp only [Steps, step, advance] at stepped
    split at stepped
    · rename_i waiting
      cases stepped
      exact poll_sound sound waiting choice observed
    · rename_i opening
      have untouched := sound.inPhase
      simp only [InPhase, opening] at untouched
      split at stepped
      · cases stepped
        exact sound.enter _ trivial
      · cases stepped
        exact sound.enter _ ⟨untouched, List.not_mem_nil, rfl, follow.file.drop follow.pos, rfl⟩
    · rename_i reader reading
      cases stepped
      exact reads_sound sound reading (read_reads follow reader choice)
    · contradiction

/-- Whatever the writer does, at every moment the lines delivered since the start, or since the
last observed truncation, are the terminated lines of the bytes passed since, without their line
endings; `pos` stands behind a newline or at the start; and after each poll it is past every newline
that the file had when its end was last looked at. -/
theorem follow_delivers_each_line_once (file : List UInt8)
    (run : Run (Guarded Steps fun follow event => follow.observed event = true) (begin file) events follow) :
    follow.present.map Text.bytes = (segments isNewline [] follow.consumed).map withoutEnding ∧
      follow.start ≤ follow.pos ∧ follow.pos ≤ follow.text.length ∧
      (follow.pos = follow.start ∨ follow.consumed.getLast? = some newline) ∧
      (follow.phase = .waiting → newline ∉ follow.seen.drop follow.pos) := by
  have sound : follow.Sound := run.invariant (fun sound stepped => step_sound sound stepped) (sound_begin file)
  refine ⟨sound.accounts.lines, sound.accounts.started, sound.accounts.inside, sound.accounts.closed, fun waiting => ?_⟩
  have inPhase := sound.inPhase
  rwa [InPhase, waiting] at inPhase

/-- So many steps of the follower, with reads as large as they come. -/
def steps (count : Nat) : List Event := List.replicate count (.advance { amount := bufferSize - 1 })

/-- A line that is written in two parts, a poll after each, then a truncation and a poll. -/
def splitLine : List Event :=
  .append (Text.bytes "sec") :: steps 5 ++ .append (Text.bytes "ond\r\nth") :: steps 6 ++ .truncate 0 :: steps 1

def play (events : List Event) (file : List UInt8) : Option Follow :=
  events.foldlM (fun follow event => if observed follow event then follow.step event else none) (begin file)

theorem split_line_delivered : ∃ follow,
    Run (Guarded Steps fun follow event => follow.observed event = true) (begin (Text.bytes "first\n")) splitLine
        follow ∧
      follow.lines = ["second"] ∧ follow.present = [] ∧ newline ∉ follow.seen.drop follow.pos := by
  have facts : (play splitLine (Text.bytes "first\n")).any (fun follow =>
      follow.lines == ["second"] && follow.present == [] && follow.phase == .waiting) = true := by decide +kernel
  obtain ⟨follow, reached, facts⟩ := (Option.any_eq_true _ _).mp facts
  simp only [Bool.and_eq_true, beq_iff_eq] at facts
  have run := Run.of_foldlM_guarded reached
  exact ⟨follow, run, facts.1.1, facts.1.2, (follow_delivers_each_line_once _ run).2.2.2.2 facts.2⟩

end Follow
end SkyDaemon.Core
