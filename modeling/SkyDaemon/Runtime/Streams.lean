import SkyDaemon.Foundation.Segments
import SkyDaemon.Runtime.Pump

/-! The two streams of a console. `pump_output` has one line splitter for both, so a line can hold
bytes of each; this says when it does not. -/
namespace SkyDaemon.Runtime

/-- The payload bytes of one stream. -/
def streamBytes (stream : UInt8) (frames : List Frame) : List UInt8 :=
  (frames.filter (·.streamType == stream)).flatMap Frame.payload

/-- The console output, every byte with the stream it came on. -/
def taggedBytes (frames : List Frame) : List (UInt8 × UInt8) :=
  (frames.filter Frame.isOutput).flatMap fun frame => frame.payload.map fun byte => (frame.streamType, byte)

def endsLine (tagged : UInt8 × UInt8) : Bool := tagged.2 == newline

/-- The complete lines, each with its newline. -/
def taggedLines (tagged : List (UInt8 × UInt8)) : List (List (UInt8 × UInt8)) := segments endsLine [] tagged

def ofStream (stream : UInt8) (tagged : List (UInt8 × UInt8)) : List (UInt8 × UInt8) :=
  tagged.filter (·.1 == stream)

/-- What is sent for a line. -/
def lineText (line : List (UInt8 × UInt8)) : String := Text.lossy (chomp (line.map Prod.snd).dropLast)

/-- Every line that is sent is one of the two streams', and both have all of theirs sent, in order. -/
structure Unglued (sent out err : List α) : Prop where
  each : ∀ line ∈ sent, line ∈ out ∨ line ∈ err
  stdout : out.Sublist sent
  stderr : err.Sublist sent

theorem Unglued.map {sent out err : List α} (unglued : Unglued sent out err) (f : α → β) :
    Unglued (sent.map f) (out.map f) (err.map f) where
  each := by
    intro line member
    obtain ⟨source, inside, rfl⟩ := List.mem_map.mp member
    rcases unglued.each source inside with own | other
    · exact .inl (List.mem_map_of_mem own)
    · exact .inr (List.mem_map_of_mem other)
  stdout := unglued.stdout.map f
  stderr := unglued.stderr.map f

/-! ## Lines and their texts -/

theorem completeLines_segments (content : List UInt8) : completeLines content =
    (segments (· == newline) [] content).map fun line => Text.lossy (chomp line.dropLast) := by
  rw [← feed_new]
  simp only [LineSplitter.feed, LineSplitter.new, List.nil_append]
  induction content using lineFraming.induct with
  | stuck content none =>
    have free : ∀ byte ∈ content, (byte == newline) = false := by
      intro byte member
      exact beq_eq_false_iff_ne.mpr fun same => nextLine_none.mp none (same ▸ member)
    rw [lineFraming.drain_none none, segments_none free]
    rfl
  | step content line rest found ih =>
    rw [lineFraming.drain_some found, List.map_cons, ih]
    obtain ⟨rfl, unbroken⟩ := nextLine_iff.mp found
    have free : ∀ byte ∈ line, (byte == newline) = false := by
      intro byte member
      exact beq_eq_false_iff_ne.mpr fun same => unbroken (same ▸ member)
    rw [segments_first free (beq_self_eq_true newline)]
    simp

theorem taggedLines_text (tagged : List (UInt8 × UInt8)) :
    (taggedLines tagged).map lineText = completeLines (tagged.map Prod.snd) := by
  have lines : segments (· == newline) ([].map Prod.snd) (tagged.map Prod.snd) =
      (taggedLines tagged).map (List.map Prod.snd) := segments_map Prod.snd [] tagged
  rw [List.map_nil] at lines
  rw [completeLines_segments, lines, List.map_map]
  rfl

theorem taggedBytes_snd (frames : List Frame) :
    (taggedBytes frames).map Prod.snd = (frames.filter Frame.isOutput).flatMap Frame.payload := by
  simp [taggedBytes, List.map_flatMap, Function.comp_def]

theorem taggedBytes_fst {frames : List Frame} {tagged : UInt8 × UInt8} (member : tagged ∈ taggedBytes frames) :
    tagged.1 = streamStdout ∨ tagged.1 = streamStderr := by
  obtain ⟨frame, listed, inside⟩ := List.mem_flatMap.mp member
  obtain ⟨byte, -, rfl⟩ := List.mem_map.mp inside
  simpa [Frame.isOutput] using (List.mem_filter.mp listed).2

theorem ofStream_snd {stream : UInt8} (output : stream = streamStdout ∨ stream = streamStderr)
    (frames : List Frame) : (ofStream stream (taggedBytes frames)).map Prod.snd = streamBytes stream frames := by
  induction frames with
  | nil => rfl
  | cons frame frames ih =>
    unfold ofStream taggedBytes streamBytes at ih ⊢
    by_cases own : frame.streamType = stream
    · have shown : frame.isOutput = true := by simpa [Frame.isOutput, own] using output
      rw [List.filter_cons_of_pos shown, List.filter_cons_of_pos (by simpa using own), List.flatMap_cons,
        List.flatMap_cons, List.filter_append, List.map_append, ih]
      simp [List.filter_map, Function.comp_def, own]
    · have skipped : ((frame.payload.map fun byte => (frame.streamType, byte)).filter (·.1 == stream)) = [] := by
        simp [List.filter_map, Function.comp_def, own]
      have others : (frame :: frames).filter (·.streamType == stream) = frames.filter (·.streamType == stream) :=
        List.filter_cons_of_neg (by simpa using own)
      rw [others, ← ih, List.filter_cons]
      split
      · rw [List.flatMap_cons, List.filter_append, skipped, List.nil_append]
      · rfl

/-! ## Lines of one stream -/

/-- Every complete line has all its bytes from one stream. -/
def Uniform (tagged : List (UInt8 × UInt8)) : Prop :=
  ∀ line ∈ taggedLines tagged, ∀ a ∈ line, ∀ b ∈ line, a.1 = b.1

/-- While a line has begun and not ended, no byte of the other stream comes in between, unless no
line ends any more. -/
def Uninterrupted (frames : List Frame) : Prop :=
  ∀ before a b after, taggedBytes frames = before ++ a :: b :: after → a.1 ≠ b.1 → a.2 ≠ newline →
    ∀ c ∈ b :: after, c.2 ≠ newline

theorem uniform_iff_uninterrupted (frames : List Frame) :
    Uniform (taggedBytes frames) ↔ Uninterrupted frames := by
  constructor
  · intro uniform before a b after split apart begun c member ended
    have closes : ∃ x ∈ b :: after, endsLine x = true := ⟨c, member, by simpa [endsLine] using ended⟩
    obtain ⟨line, complete, first, second⟩ :=
      neighbours_segment [] before (by simpa [endsLine] using begun) closes
    rw [← split] at complete
    exact apart (uniform line complete a first b second)
  · intro uninterrupted line complete
    obtain ⟨before, front, last, after, split, rfl, free, ends⟩ := mem_segments complete
    let Same (a b : UInt8 × UInt8) : Prop := a.1 = b.1
    have : Trans Same Same Same := ⟨fun first second => first.trans second⟩
    -- neighbours in the line agree, and so all its bytes do
    have chained : (front ++ [last]).IsChain Same := by
      rw [List.isChain_iff_forall_rel_of_append_cons_cons]
      intro a b first second same
      by_contra apart
      have inside : a ∈ front := by
        have ahead := congrArg List.dropLast same
        rw [List.dropLast_concat, List.dropLast_append_of_ne_nil (List.cons_ne_nil _ _)] at ahead
        rw [ahead]
        simp
      have reached : last ∈ b :: second := by
        have ending := congrArg List.getLast? same
        rw [List.getLast?_concat, List.getLast?_append_of_ne_nil _ (List.cons_ne_nil _ _)] at ending
        exact List.mem_of_getLast? (by simpa using ending.symm)
      have split' : taggedBytes frames = (before ++ first) ++ a :: b :: (second ++ after) := by
        rw [split, same]
        simp
      have begun : a.2 ≠ newline := by simpa [endsLine] using free a inside
      have ended : last.2 = newline := by simpa [endsLine] using ends
      have later : last ∈ b :: (second ++ after) := by
        rw [← List.cons_append]
        exact List.mem_append_left after reached
      exact uninterrupted _ _ _ _ split' apart begun last later ended
    have toLast : ∀ a ∈ front ++ [last], a.1 = last.1 := by
      intro a member
      rcases List.mem_append.mp member with inside | own
      · exact (List.pairwise_append.mp chained.pairwise).2.2 a inside last (List.mem_singleton_self last)
      · rw [List.mem_singleton.mp own]
    intro a first b second
    rw [toLast a first, toLast b second]

theorem ofStream_lines {stream : UInt8} (member : line ∈ taggedLines (ofStream stream tagged)) :
    ∀ a ∈ line, a.1 = stream := by
  obtain ⟨before, front, last, after, split, rfl, -, -⟩ := mem_segments member
  intro a inside
  have kept : a ∈ ofStream stream tagged := by
    rw [split]
    exact List.mem_append_left _ (List.mem_append_right _ inside)
  simpa using (List.mem_filter.mp kept).2

theorem unglued_iff_uniform (frames : List Frame) :
    Unglued (taggedLines (taggedBytes frames)) (taggedLines (ofStream streamStdout (taggedBytes frames)))
      (taggedLines (ofStream streamStderr (taggedBytes frames))) ↔ Uniform (taggedBytes frames) := by
  constructor
  · intro unglued line complete a first b second
    rcases unglued.each line complete with own | own
    · rw [ofStream_lines own a first, ofStream_lines own b second]
    · rw [ofStream_lines own a first, ofStream_lines own b second]
  · intro uniform
    have lines (stream : UInt8) : taggedLines (ofStream stream (taggedBytes frames)) =
        (taggedLines (taggedBytes frames)).filter (·.all (·.1 == stream)) := by
      apply @segments_filter _ endsLine (·.1 == stream) [] (taggedBytes frames)
      intro line complete a first b second
      rw [uniform line complete a first b second]
    refine ⟨?_, lines streamStdout ▸ List.filter_sublist, lines streamStderr ▸ List.filter_sublist⟩
    intro line complete
    obtain ⟨before, front, last, after, split, rfl, -, -⟩ := mem_segments complete
    have own : ∀ stream, last.1 = stream → front ++ [last] ∈ taggedLines (ofStream stream (taggedBytes frames)) := by
      intro stream same
      rw [lines, List.mem_filter, List.all_eq_true]
      refine ⟨complete, fun a inside => ?_⟩
      rw [uniform _ complete a inside last (by simp), same]
      exact beq_self_eq_true stream
    have listed : last ∈ taggedBytes frames := by simp [split]
    exact (taggedBytes_fst listed).imp (own streamStdout) (own streamStderr)

/-- The lines of a console are those of its two streams exactly when no stream breaks into a line
that the other has begun and that is completed later. -/
theorem console_unglued_iff (frames : List Frame) {leftover tail : List UInt8} {reads : List (List UInt8)}
    (nonempty : ∀ chunk ∈ reads, chunk ≠ []) (incomplete : Incomplete tail)
    (stream : leftover ++ reads.flatten = frames.flatMap Frame.encode ++ tail) :
    ((Pump.start leftover).output none reads).sent = (taggedLines (taggedBytes frames)).map lineText ∧
    (Unglued (taggedLines (taggedBytes frames)) (taggedLines (ofStream streamStdout (taggedBytes frames)))
      (taggedLines (ofStream streamStderr (taggedBytes frames))) ↔ Uninterrupted frames) ∧
    (Uninterrupted frames → Unglued ((Pump.start leftover).output none reads).sent
      (completeLines (streamBytes streamStdout frames)) (completeLines (streamBytes streamStderr frames))) := by
  have sent := Pump.sent_frames none nonempty incomplete stream
  rw [received, ← taggedBytes_snd, ← taggedLines_text] at sent
  have exact' := (unglued_iff_uniform frames).trans (uniform_iff_uninterrupted frames)
  refine ⟨sent, exact', fun uninterrupted => ?_⟩
  have texts := (exact'.mpr uninterrupted).map lineText
  rwa [← sent, taggedLines_text, taggedLines_text, ofStream_snd (.inl rfl), ofStream_snd (.inr rfl)] at texts

/-- Each stream ends its line before the other begins one. -/
def turnFrames : List Frame :=
  [⟨1, (0, 0, 0), [97], by decide⟩, ⟨1, (0, 0, 0), [10], by decide⟩, ⟨2, (0, 0, 0), [98, 10], by decide⟩,
    ⟨1, (0, 0, 0), [99], by decide⟩]

theorem console_unglued_turns : Unglued ((Pump.start (turnFrames.flatMap Frame.encode)).output none []).sent
    (completeLines (streamBytes streamStdout turnFrames)) (completeLines (streamBytes streamStderr turnFrames)) := by
  have incomplete : Incomplete [] := ⟨⟨1, (0, 0, 0), [], by decide⟩, List.nil_prefix, by decide⟩
  have stream : turnFrames.flatMap Frame.encode ++ [].flatten = turnFrames.flatMap Frame.encode ++ [] := by simp
  have lines : taggedLines (taggedBytes turnFrames) = [[(1, 97), (1, 10)], [(2, 98), (2, 10)]] := by
    decide
  have uniform : Uniform (taggedBytes turnFrames) := by
    simp only [Uniform, lines, List.forall_mem_cons, List.not_mem_nil, false_implies, implies_true, and_self]
  have nonempty : ∀ chunk ∈ ([] : List (List UInt8)), chunk ≠ [] := nofun
  exact (console_unglued_iff turnFrames nonempty incomplete stream).2.2
    ((uniform_iff_uninterrupted turnFrames).mp uniform)

/-- A prompt on stdout, then a line on stderr. -/
def promptFrames : List Frame := [⟨1, (0, 0, 0), [97, 98], by decide⟩, ⟨2, (0, 0, 0), [99, 10], by decide⟩]

/-- The two are sent as one line that neither stream has. -/
theorem prompt_glued_to_stderr :
    ((Pump.start (promptFrames.flatMap Frame.encode)).output none []).sent = ["abc"] ∧
    ¬ Unglued ((Pump.start (promptFrames.flatMap Frame.encode)).output none []).sent
      (completeLines (streamBytes streamStdout promptFrames))
      (completeLines (streamBytes streamStderr promptFrames)) := by
  have sent : ((Pump.start (promptFrames.flatMap Frame.encode)).output none []).sent = ["abc"] := by
    decide +kernel
  refine ⟨sent, fun unglued => ?_⟩
  have shown := unglued.each "abc" (by simp [sent])
  exact absurd shown (by decide +kernel)

end SkyDaemon.Runtime
