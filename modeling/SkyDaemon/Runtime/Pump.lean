import SkyDaemon.Runtime.Demux

/-! `pump_output`: from the reads after the response headers to the lines of the
console channel. The lines depend on the bytes alone, not on where a read ends. -/
namespace SkyDaemon.Runtime

structure Pump where
  buf : List UInt8
  splitter : LineSplitter
  /-- The lines that the channel took. -/
  sent : List String
  /-- A send failed, so the task returned. -/
  closed : Bool

namespace Pump

def start (leftover : List UInt8) : Pump := ⟨leftover, .new, [], false⟩

/-- `tx.send`: `capacity` is how many lines the receiver outlives, without bound if `none`. -/
def send (capacity : Option Nat) (pump : Pump) (line : String) : Pump :=
  if pump.closed then pump
  else if capacity.any fun limit => limit ≤ pump.sent.length then { pump with closed := true }
  else { pump with sent := pump.sent ++ [line] }

/-- One complete frame: the lines it completes are sent, unless it is neither
stdout nor stderr. -/
def frame (capacity : Option Nat) (pump : Pump) (streamType : UInt8) (payload : List UInt8) : Pump :=
  if streamType = streamStdout ∨ streamType = streamStderr then
    let fed := pump.splitter.feed payload
    fed.1.foldl (send capacity) { pump with splitter := fed.2 }
  else pump

/-- The inner loop: every complete frame of the buffer. -/
def drainFuel (capacity : Option Nat) : Nat → Pump → Pump
  | 0, pump => pump
  | fuel + 1, pump =>
      if pump.closed then pump
      else match nextFrame pump.buf with
        | none => pump
        | some ((streamType, payload), rest) =>
            drainFuel capacity fuel (frame capacity { pump with buf := rest } streamType payload)

def drain (capacity : Option Nat) (pump : Pump) : Pump := drainFuel capacity pump.buf.length pump

/-- The outer loop, over the reads; the end of the stream and an error both end it. -/
def output (capacity : Option Nat) (pump : Pump) : List (List UInt8) → Pump
  | [] => pump.drain capacity
  | chunk :: rest =>
      let drained := pump.drain capacity
      if drained.closed ∨ chunk = [] then drained
      else output capacity { drained with buf := drained.buf ++ chunk } rest

end Pump

/-- What a receiver takes that is dropped after `capacity` lines. -/
def received (capacity : Option Nat) (lines : List String) : List String :=
  match capacity with
  | none => lines
  | some limit => lines.take limit

/-- The payload bytes of the frames that are console output. -/
def outputBytes (frames : List (UInt8 × List UInt8)) : List UInt8 :=
  frames.flatMap fun (streamType, payload) =>
    if streamType = streamStdout ∨ streamType = streamStderr then payload else []

namespace Pump

/-- A pump that has seen the lines `total`, of which the channel took what it could. -/
structure Offered (capacity : Option Nat) (total : List String) (pump : Pump) : Prop where
  sent : pump.sent = received capacity total
  closed : pump.closed = true ↔ ∃ limit, capacity = some limit ∧ limit < total.length

theorem Offered.append (offered : Offered capacity total pump) (closed : pump.closed = true)
    (more : List String) : Offered capacity (total ++ more) pump := by
  obtain ⟨limit, rfl, less⟩ := offered.closed.mp closed
  refine ⟨?_, iff_of_true closed ⟨limit, rfl, by rw [List.length_append]; omega⟩⟩
  rw [offered.sent, received, received, List.take_append_of_le_length (by omega)]

theorem Offered.send (offered : Offered capacity total pump) (line : String) :
    Offered capacity (total ++ [line]) (pump.send capacity line) := by
  cases closed : pump.closed with
  | true =>
    rw [Pump.send, closed, if_pos rfl]
    exact offered.append closed [line]
  | false =>
    rw [Pump.send, closed, if_neg Bool.false_ne_true]
    cases capacity with
    | none => exact ⟨by simp [received, offered.sent], by simp⟩
    | some limit =>
      have fits : total.length ≤ limit := by
        by_contra more
        have := offered.closed.mpr ⟨limit, rfl, by omega⟩
        rw [closed] at this
        contradiction
      have all : pump.sent = total := by
        rw [offered.sent]
        exact List.take_of_length_le fits
      by_cases full : limit ≤ pump.sent.length
      · simp only [Option.any_some, decide_eq_true full, if_true]
        rw [all] at full
        refine ⟨?_, iff_of_true rfl ⟨limit, rfl, by simp; omega⟩⟩
        dsimp only
        rw [all, received, List.take_append_of_le_length (by omega), List.take_of_length_le fits]
      · simp only [Option.any_some, decide_eq_false full, Bool.false_eq_true, if_false]
        rw [all] at full
        refine ⟨?_, by simp; omega⟩
        dsimp only
        rw [all, received, List.take_of_length_le (by simp; omega)]

theorem Offered.sendAll (offered : Offered capacity total pump) (lines : List String) :
    Offered capacity (total ++ lines) (lines.foldl (Pump.send capacity) pump) := by
  induction lines generalizing total pump with
  | nil => simpa using offered
  | cons line lines ih =>
    have next := ih (offered.send line)
    rwa [List.append_assoc] at next

theorem send_fields (capacity : Option Nat) (pump : Pump) (line : String) :
    (pump.send capacity line).buf = pump.buf ∧
      (pump.send capacity line).splitter = pump.splitter := by
  unfold Pump.send
  split
  · exact ⟨rfl, rfl⟩
  · split <;> exact ⟨rfl, rfl⟩

theorem sendAll_fields (capacity : Option Nat) (lines : List String) (pump : Pump) :
    (lines.foldl (Pump.send capacity) pump).buf = pump.buf ∧
      (lines.foldl (Pump.send capacity) pump).splitter = pump.splitter := by
  induction lines generalizing pump with
  | nil => exact ⟨rfl, rfl⟩
  | cons line lines ih =>
    obtain ⟨buf, splitter⟩ := ih (pump.send capacity line)
    obtain ⟨sameBuf, sameSplitter⟩ := send_fields capacity pump line
    exact ⟨buf.trans sameBuf, splitter.trans sameSplitter⟩

/-- The pump after the console output `content`: its complete lines were offered and,
while the channel is open, the splitter holds the line that has begun. -/
structure Pumped (capacity : Option Nat) (content : List UInt8) (pump : Pump) : Prop where
  offered : Offered capacity (LineSplitter.new.feed content).1 pump
  splitter : pump.closed = false → pump.splitter = (LineSplitter.new.feed content).2

theorem Pumped.start (capacity : Option Nat) (leftover : List UInt8) :
    Pumped capacity [] (Pump.start leftover) where
  offered := by
    have none : (LineSplitter.new.feed []).1 = [] := rfl
    rw [none]
    cases capacity with
    | none => exact ⟨rfl, by simp [Pump.start]⟩
    | some limit => exact ⟨(List.take_nil).symm, by simp [Pump.start]⟩
  splitter := fun _ => rfl

/-- Once the channel is closed, further output changes nothing. -/
theorem Pumped.append (pumped : Pumped capacity content pump) (closed : pump.closed = true)
    (more : List UInt8) : Pumped capacity (content ++ more) pump where
  offered := by
    rw [feed_feed]
    exact pumped.offered.append closed _
  splitter := fun still => absurd closed (still ▸ Bool.false_ne_true)

theorem Pumped.frame (pumped : Pumped capacity content pump) (still : pump.closed = false)
    (streamType : UInt8) (payload : List UInt8) :
    Pumped capacity (content ++ outputBytes [(streamType, payload)])
      (pump.frame capacity streamType payload) := by
  by_cases isOutput : streamType = streamStdout ∨ streamType = streamStderr
  · simp only [Pump.frame, outputBytes, List.flatMap_cons, List.flatMap_nil, List.append_nil,
      if_pos isOutput]
    have kept := pumped.splitter still
    constructor
    · rw [feed_feed, kept]
      apply Offered.sendAll
      exact ⟨pumped.offered.sent, pumped.offered.closed⟩
    · intro _
      rw [(sendAll_fields capacity _ _).2, feed_feed, kept]
  · simp only [Pump.frame, outputBytes, List.flatMap_cons, List.flatMap_nil, List.append_nil,
      if_neg isOutput]
    exact pumped

theorem frame_buf (capacity : Option Nat) (pump : Pump) (streamType : UInt8)
    (payload : List UInt8) : (pump.frame capacity streamType payload).buf = pump.buf := by
  unfold Pump.frame
  split
  · exact (sendAll_fields capacity _ _).1
  · rfl

theorem Pumped.withBuf (pumped : Pumped capacity content pump) (buf : List UInt8) :
    Pumped capacity content { pump with buf := buf } :=
  ⟨⟨pumped.offered.sent, pumped.offered.closed⟩, pumped.splitter⟩

theorem drainFuel_closed (closed : pump.closed = true) (fuel : Nat) :
    drainFuel capacity fuel pump = pump := by
  cases fuel with
  | zero => rfl
  | succ fuel => rw [drainFuel, if_pos closed]

theorem outputBytes_cons (frame : UInt8 × List UInt8) (frames : List (UInt8 × List UInt8)) :
    outputBytes (frame :: frames) = outputBytes [frame] ++ outputBytes frames := by
  simp [outputBytes]

theorem outputBytes_append (first second : List (UInt8 × List UInt8)) :
    outputBytes (first ++ second) = outputBytes first ++ outputBytes second :=
  List.flatMap_append

/-- The inner loop pumps every complete frame of the buffer and keeps the rest. -/
theorem Pumped.drainFuel {pump : Pump} (buf : List UInt8) (here : pump.buf = buf)
    (enough : buf.length ≤ fuel) (pumped : Pumped capacity content pump)
    (still : pump.closed = false) :
    Pumped capacity (content ++ outputBytes (frameFraming.drain buf).1)
        (pump.drainFuel capacity fuel) ∧
      ((pump.drainFuel capacity fuel).closed = false →
        (pump.drainFuel capacity fuel).buf = (frameFraming.drain buf).2) := by
  induction buf using frameFraming.induct generalizing fuel content pump with
  | stuck buf none =>
    have waits : pump.drainFuel capacity fuel = pump := by
      cases fuel with
      | zero => rfl
      | succ fuel =>
        rw [Pump.drainFuel, if_neg (by simp [still]), here, show nextFrame buf = Option.none from none]
    rw [waits, frameFraming.drain_none none, here]
    exact ⟨by simpa [outputBytes] using pumped, fun _ => rfl⟩
  | step buf frame rest found ih =>
    obtain ⟨streamType, payload⟩ := frame
    have less := frameFraming.shrinks found
    obtain ⟨fuel, rfl⟩ : ∃ k, fuel = k + 1 := ⟨fuel - 1, by omega⟩
    rw [Pump.drainFuel, if_neg (by simp [still]), here,
      show nextFrame buf = some ((streamType, payload), rest) from found,
      frameFraming.drain_some found, outputBytes_cons, ← List.append_assoc]
    have next := (pumped.withBuf rest).frame still streamType payload
    cases closed : (Pump.frame capacity { pump with buf := rest } streamType payload).closed with
    | true =>
      dsimp only
      rw [drainFuel_closed closed]
      refine ⟨next.append closed _, fun open' => ?_⟩
      rw [closed] at open'
      contradiction
    | false => exact ih (frame_buf capacity _ streamType payload) (by omega) next closed

/-- The lines a pump sends depend on the bytes it reads, not on how they were cut. -/
theorem Pumped.output {pump : Pump} (pumped : Pumped capacity content pump)
    (still : pump.closed = false) (nonempty : ∀ chunk ∈ reads, chunk ≠ []) :
    Pumped capacity
      (content ++ outputBytes (frameFraming.drain (pump.buf ++ reads.flatten)).1)
      (pump.output capacity reads) := by
  induction reads generalizing content pump with
  | nil =>
    rw [List.flatten_nil, List.append_nil]
    exact (pumped.drainFuel pump.buf rfl le_rfl still).1
  | cons chunk rest ih =>
    obtain ⟨drained, left⟩ := pumped.drainFuel pump.buf rfl le_rfl still
    rw [List.flatten_cons, ← List.append_assoc, List.append_assoc, frameFraming.drain_append,
      outputBytes_append, ← List.append_assoc, Pump.output]
    by_cases closed : (pump.drain capacity).closed = true
    · rw [if_pos (.inl closed)]
      exact drained.append closed _
    · have goesOn : ¬((pump.drain capacity).closed = true ∨ chunk = []) :=
        not_or.mpr ⟨closed, nonempty chunk List.mem_cons_self⟩
      have kept : (frameFraming.drain pump.buf).2 = (pump.drain capacity).buf :=
        (left (Bool.not_eq_true _ ▸ closed)).symm
      rw [if_neg goesOn, kept, ← List.append_assoc _ chunk]
      apply ih (drained.withBuf ((pump.drain capacity).buf ++ chunk)) (Bool.not_eq_true _ ▸ closed)
      intro c member
      exact nonempty c (List.mem_cons_of_mem chunk member)

end Pump

/-! ## Docker frames -/

/-- The size of a payload as four bytes, the most significant first. -/
def u32Bytes (size : Nat) : List UInt8 :=
  [.ofNat (size / 2 ^ 24), .ofNat (size / 2 ^ 16), .ofNat (size / 2 ^ 8), .ofNat size]

structure Frame where
  streamType : UInt8
  padding : UInt8 × UInt8 × UInt8
  payload : List UInt8
  fits : payload.length < 2 ^ 32

namespace Frame

def encode (frame : Frame) : List UInt8 :=
  [frame.streamType, frame.padding.1, frame.padding.2.1, frame.padding.2.2] ++
    u32Bytes frame.payload.length ++ frame.payload

def view (frame : Frame) : UInt8 × List UInt8 := (frame.streamType, frame.payload)

/-- Whether the frame is part of the console output. -/
def isOutput (frame : Frame) : Bool :=
  frame.streamType = streamStdout ∨ frame.streamType = streamStderr

theorem outputBytes_view (frames : List Frame) :
    outputBytes (frames.map view) = (frames.filter isOutput).flatMap payload := by
  induction frames with
  | nil => rfl
  | cons frame frames ih =>
    rw [List.map_cons, Pump.outputBytes_cons, ih, List.filter_cons]
    by_cases isOutput : frame.streamType = streamStdout ∨ frame.streamType = streamStderr
    · simp [outputBytes, view, Frame.isOutput, isOutput]
    · simp [outputBytes, view, Frame.isOutput, isOutput]

theorem nextFrame_encode (frame : Frame) (more : List UInt8) :
    nextFrame (frame.encode ++ more) = some (frame.view, more) := by
  have size : beU32 (.ofNat (frame.payload.length / 2 ^ 24)) (.ofNat (frame.payload.length / 2 ^ 16))
      (.ofNat (frame.payload.length / 2 ^ 8)) (.ofNat frame.payload.length) =
        frame.payload.length := by
    have := frame.fits
    simp only [beU32, UInt8.toNat_ofNat']
    omega
  have parsed : parseFrameHeader (frame.encode ++ more) =
      some ⟨frame.streamType, frame.payload.length⟩ := by
    simp only [encode, u32Bytes, List.cons_append, List.nil_append, parseFrameHeader, size]
  refine nextFrame_iff.mpr ⟨_, parsed, ?_, ?_, ?_⟩
  · simp only [encode, u32Bytes, List.length_append, List.length_cons, List.length_nil]
    omega
  · simp [encode, u32Bytes, view]
  · simp [encode, u32Bytes, Nat.add_comm 8]

end Frame

/-- What may follow the last complete frame: a frame that is cut short, or nothing. -/
def Incomplete (tail : List UInt8) : Prop :=
  ∃ frame : Frame, tail <+: frame.encode ∧ tail ≠ frame.encode

theorem Incomplete.nextFrame (incomplete : Incomplete tail) : nextFrame tail = none := by
  obtain ⟨frame, ⟨more, whole⟩, short⟩ := incomplete
  rw [Option.eq_none_iff_forall_ne_some]
  rintro ⟨item, rest⟩ found
  have early : Runtime.nextFrame (tail ++ more) = some (item, rest ++ more) :=
    frameFraming.stable found
  have late := frame.nextFrame_encode []
  rw [List.append_nil, ← whole] at late
  have same := late.symm.trans early
  simp only [Option.some.injEq, Prod.mk.injEq] at same
  have none := (List.append_eq_nil_iff.mp same.2.symm).2
  rw [none, List.append_nil] at whole
  exact short whole

/-- What the pump sends of a stream of frames, wherever the reads end. -/
theorem Pump.sent_frames {leftover : List UInt8} {reads : List (List UInt8)} {frames : List Frame}
    {tail : List UInt8} (capacity : Option Nat) (nonempty : ∀ chunk ∈ reads, chunk ≠ [])
    (incomplete : Incomplete tail) (stream : leftover ++ reads.flatten = frames.flatMap Frame.encode ++ tail) :
    ((Pump.start leftover).output capacity reads).sent =
      received capacity (completeLines ((frames.filter Frame.isOutput).flatMap Frame.payload)) := by
  have pumped := (Pump.Pumped.start capacity leftover).output rfl nonempty
  have drained : frameFraming.drain (leftover ++ reads.flatten) = (frames.map Frame.view, tail) := by
    rw [stream]
    exact frameFraming.drain_flatMap Frame.nextFrame_encode frames incomplete.nextFrame
  rw [List.nil_append, Pump.start, drained] at pumped
  have sent := pumped.offered.sent
  rwa [Frame.outputBytes_view, feed_new] at sent

end SkyDaemon.Runtime
