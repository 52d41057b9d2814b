import SkyDaemon.Core.Tail

/-! A writer that may flush inside a character. `read_line` checks its bytes before the follower
can see that the line is not complete, so a poll that finds such an end is its last. -/
namespace SkyDaemon.Core
open Transition

/-- Whole characters. -/
def Whole (content : List UInt8) : Prop := ∃ text, content = Text.bytes text

/-- A text as far as it was written, up to any byte. -/
def Begun (content : List UInt8) : Prop := ∃ text, content <+: Text.bytes text

theorem Whole.append (front : Whole first) (back : Whole second) : Whole (first ++ second) := by
  obtain ⟨text, rfl⟩ := front
  obtain ⟨more, rfl⟩ := back
  exact ⟨text ++ more, (Text.bytes_append text more).symm⟩

theorem Whole.behind (front : Whole first) (both : Whole (first ++ second)) : Whole second := by
  obtain ⟨text, rfl⟩ := front
  obtain ⟨whole, same⟩ := both
  obtain ⟨back, rest, -⟩ := Text.bytes_eq_append same.symm
  exact ⟨back, rest⟩

theorem whole_iff : Whole content ↔ Text.fromUtf8 content ≠ none := by
  rw [Option.ne_none_iff_exists']
  exact exists_congr fun text => Text.fromUtf8_eq_some_iff.symm

/-- A line that was written with its newline consists of whole characters, if what stands before it does. -/
theorem Begun.line {before line rest : List UInt8} (begun : Begun (before ++ (line ++ [newline] ++ rest)))
    (front : Whole before) : Whole (line ++ [newline]) := by
  obtain ⟨text, more, whole⟩ := begun
  obtain ⟨known, rfl⟩ := front
  rw [List.append_assoc] at whole
  obtain ⟨back, behind, -⟩ := Text.bytes_eq_append whole.symm
  have stands : Text.bytes back = line ++ UInt8.ofNat '\n'.toNat :: (rest ++ more) := by
    rw [← behind]
    simp [newline]
  obtain ⟨chars, rfl⟩ := Text.bytes_before_ascii (by decide) stands
  exact Whole.append ⟨chars, rfl⟩ ⟨"\n", by decide⟩

namespace Follow

/-- The file is always readable, only grows, and is at every moment the beginning of some text. -/
def Readable (follow : Follow) : Event → Prop
  | .append content => Begun (follow.file ++ content)
  | .truncate _ => False
  | .advance choice => choice.gone = false ∧ choice.fault = none

/-- The follower has returned an error. -/
def Failed (follow : Follow) : Prop := ∃ message, follow.phase = .returned (.error message)

structure Intact (follow : Follow) : Prop where
  untouched : follow.lost = none
  begun : Begun follow.file
  passed : Whole (follow.file.take follow.pos)
  looked : follow.Failed ↔ ¬Whole follow.seen

theorem intact_begin {file : List UInt8} (whole : Whole file) : (begin file).Intact where
  untouched := rfl
  begun := by
    obtain ⟨text, rfl⟩ := whole
    exact ⟨text, List.prefix_refl _⟩
  passed := by
    change Whole (file.take file.length)
    rwa [List.take_length]
  looked := iff_of_false nofun (not_not.mpr whole)

section Steps
variable {follow after : Follow}

theorem Intact.seen_whole (intact : follow.Intact) (running : ¬follow.Failed) : Whole follow.seen :=
  not_not.mp fun cut => running (intact.looked.mpr cut)

/-- Neither the file nor `pos` has changed, and the end was not looked at. -/
theorem Intact.enter (intact : follow.Intact) (running : ¬follow.Failed) (phase : Phase)
    (running' : ∀ message, phase ≠ .returned (.error message)) : Intact { follow with phase := phase } where
  untouched := intact.untouched
  begun := intact.begun
  passed := intact.passed
  looked := iff_of_false (fun ⟨message, returned⟩ => running' message returned)
    (not_not.mpr (intact.seen_whole running))

theorem Intact.reads (intact : follow.Intact) (running : ¬follow.Failed) (reader : Reader) :
    Intact { follow with phase := .reading reader } := by
  refine intact.enter running _ fun message returned => ?_
  cases returned

theorem observed_of_readable (intact : follow.Intact) (readable : follow.Readable event) :
    follow.observed event = true := by
  cases event with
  | append content => rfl
  | truncate length => exact readable.elim
  | advance choice => simp [observed, intact.untouched]

theorem append_intact (sound : follow.Sound) (intact : follow.Intact) (readable : follow.Readable (.append content)) :
    Intact { follow with file := follow.file ++ content } where
  untouched := intact.untouched
  begun := readable
  passed := by
    change Whole ((follow.file ++ content).take follow.pos)
    rw [List.take_append_of_le_length (sound.accounts.inside_file intact.untouched)]
    exact intact.passed
  looked := intact.looked

theorem poll_intact (sound : follow.Sound) (intact : follow.Intact) (waiting : follow.phase = .waiting)
    (choice : Choice) : (follow.poll choice).Intact := by
  have running : ¬follow.Failed := fun ⟨_, returned⟩ => by simp [waiting] at returned
  have inside := sound.accounts.inside_file intact.untouched
  unfold poll
  split
  · exact intact.enter running _ nofun
  · simp only [Nat.not_lt.mpr inside, if_false]
    split
    · rename_i nothingNew
      have passed := intact.passed
      rw [← nothingNew, List.take_length] at passed
      refine ⟨intact.untouched, intact.begun, intact.passed, iff_of_false ?_ (not_not.mpr passed)⟩
      exact running
    · exact intact.enter running _ nofun

/-- At the end of the file the bytes behind `pos` are whole exactly when the file is. -/
theorem ended_intact (sound : follow.Sound) (intact : follow.Intact) (reading : follow.phase = .reading reader)
    (empty : reader.buffer = []) (atEnd : follow.file.drop reader.offset = []) :
    ({ follow with seen := follow.file }.endLine reader).Intact := by
  obtain ⟨-, free, -, stands⟩ := reading_stands sound reading
  rw [empty, atEnd, List.append_nil, List.append_nil] at stands
  have split : follow.file.take follow.pos ++ reader.line = follow.file := by rw [← stands, List.take_append_drop]
  rcases endLine_cases { follow with seen := follow.file } reader with
    ⟨invalid, failed⟩ | ⟨text, same, ⟨-, ended⟩ | ⟨closed, -⟩⟩
  · have cut : ¬Whole follow.file := by
      rw [← split]
      exact fun whole => whole_iff.mp (intact.passed.behind whole) invalid
    rw [failed]
    exact ⟨intact.untouched, intact.begun, intact.passed, iff_of_true ⟨_, rfl⟩ cut⟩
  · have whole : Whole follow.file := by
      rw [← split]
      exact intact.passed.append ⟨text, same⟩
    rw [ended]
    exact ⟨intact.untouched, intact.begun, intact.passed, iff_of_false nofun (not_not.mpr whole)⟩
  · exact absurd (List.mem_of_getLast? closed) free

theorem found_intact (sound : follow.Sound) (intact : follow.Intact) (reading : follow.phase = .reading reader)
    (split : reader.buffer = front ++ newline :: rest) :
    (follow.endLine { reader with buffer := rest, line := reader.line ++ front ++ [newline] }).Intact := by
  have running : ¬follow.Failed := fun ⟨_, returned⟩ => by simp [reading] at returned
  obtain ⟨-, -, -, stands⟩ := reading_stands sound reading
  have stands : follow.file.drop follow.pos =
      reader.line ++ front ++ [newline] ++ (rest ++ follow.file.drop reader.offset) := by
    rw [stands, split]
    simp
  have begun := intact.begun
  rw [← List.take_append_drop follow.pos follow.file, stands] at begun
  have whole := begun.line intact.passed
  rcases endLine_cases follow { reader with buffer := rest, line := reader.line ++ front ++ [newline] } with
    ⟨invalid, -⟩ | ⟨text, -, ⟨other, -⟩ | ⟨-, -, delivered⟩⟩
  · exact absurd invalid (whole_iff.mp whole)
  · exact absurd List.getLast?_concat other
  · rw [delivered]
    refine ⟨intact.untouched, intact.begun, ?_, iff_of_false nofun (not_not.mpr (intact.seen_whole running))⟩
    change Whole (follow.file.take (follow.pos + (reader.line ++ front ++ [newline]).length))
    rw [List.take_add, stands, List.take_left]
    exact intact.passed.append whole

theorem step_intact (sound : follow.Sound) (intact : follow.Intact)
    (stepped : Guarded Steps Readable follow event after) :
    after.Intact := by
  obtain ⟨stepped, readable⟩ := stepped
  cases event with
  | append content =>
    cases stepped
    exact append_intact sound intact readable
  | truncate length => exact readable.elim
  | advance choice =>
    simp only [Steps, step, advance] at stepped
    split at stepped
    · rename_i waiting
      cases stepped
      exact poll_intact sound intact waiting choice
    · rename_i opening
      rw [readable.2] at stepped
      cases stepped
      refine intact.reads ?_ _
      rintro ⟨message, returned⟩
      simp [opening] at returned
    · rename_i reader reading
      have running : ¬follow.Failed := by
        rintro ⟨message, returned⟩
        simp [reading] at returned
      have reads := read_reads follow reader choice
      rw [Option.some.inj stepped] at reads
      cases reads with
      | fault failed => cases readable.2.symm.trans failed
      | ended empty atEnd => exact ended_intact sound intact reading empty atEnd
      | filled empty available => exact intact.reads running _
      | taken free => exact intact.reads running _
      | found split free => exact found_intact sound intact reading split
    · contradiction

end Steps

/-- On a readable file that only grows, begun when it held whole characters, the follower has
returned an error exactly when the file was cut inside a character as its end was last looked at. -/
theorem follow_fails_iff_cut {file : List UInt8} (whole : Whole file)
    (run : Run (Guarded Steps Readable) (begin file) events follow) :
    (∃ message, follow.phase = .returned (.error message)) ↔ ¬Whole follow.seen := by
  have kept : follow.Sound ∧ follow.Intact := by
    apply run.invariant _ ⟨sound_begin file, intact_begin whole⟩
    rintro follow event after ⟨sound, intact⟩ stepped
    exact ⟨step_sound sound ⟨stepped.1, observed_of_readable intact stepped.2⟩, step_intact sound intact stepped⟩
  exact kept.2.looked

/-- A step of the follower for which the file is there and can be read. -/
def undisturbed (_ : Follow) : Event → Bool
  | .advance choice => !choice.gone && choice.fault.isNone
  | _ => false

def playOn (count : Nat) (follow : Follow) : Option Follow :=
  (steps count).foldlM (fun follow event => if undisturbed follow event then follow.step event else none) follow

/-- What is written, and then steps of the follower alone. -/
theorem run_written {content : List UInt8} (text : Begun content)
    (played : playOn count { begin [] with file := content } = some follow) :
    Run (Guarded Steps Readable) (begin []) (.append content :: steps count) follow := by
  refine .next ⟨rfl, text⟩ ((Run.of_foldlM_guarded played).mono ?_)
  rintro follow event after ⟨stepped, calm⟩
  refine ⟨stepped, ?_⟩
  cases event with
  | append content => contradiction
  | truncate length => contradiction
  | advance choice => simpa [undisturbed, Readable] using calm

theorem whole_line_survives : ∃ follow,
    Run (Guarded Steps Readable) (begin []) (.append (Text.bytes "é\n") :: steps 5) follow ∧
      follow.lines = ["é"] ∧ ¬∃ message, follow.phase = .returned (.error message) := by
  have facts : (playOn 5 { begin [] with file := Text.bytes "é\n" }).any (fun follow =>
      follow.lines == ["é"] && follow.seen == Text.bytes "é\n") = true := by decide +kernel
  obtain ⟨follow, played, facts⟩ := (Option.any_eq_true _ _).mp facts
  simp only [Bool.and_eq_true, beq_iff_eq] at facts
  have run := run_written ⟨"é\n", List.prefix_refl _⟩ played
  exact ⟨follow, run, facts.1, (follow_fails_iff_cut ⟨"", rfl⟩ run).not.mpr (not_not.mpr ⟨_, facts.2⟩)⟩

/-- Of the two bytes of `é` one is in the file when it is polled. -/
theorem cut_character_ends_follow : ∃ follow,
    Begun [] ∧ Run (Guarded Steps Readable) (begin []) (.append [0xC3] :: steps 5) follow ∧
      follow.phase = .returned (.error "stream did not contain valid UTF-8") := by
  have facts : (playOn 5 { begin [] with file := [0xC3] }).any (fun follow =>
      follow.phase == .returned (.error "stream did not contain valid UTF-8")) = true := by decide +kernel
  obtain ⟨follow, played, failed⟩ := (Option.any_eq_true _ _).mp facts
  have begun : Begun [0xC3] := ⟨"é", [0xA9], by decide⟩
  exact ⟨follow, ⟨"", List.prefix_refl _⟩, run_written begun played, beq_iff_eq.mp failed⟩

end Follow
end SkyDaemon.Core
