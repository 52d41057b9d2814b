import SkyDaemon.Runtime.Http
import SkyDaemon.Runtime.Pump

/-! `DockerRuntime::attach`: from the reads of a hijacked connection to the bytes that
its pump starts from, and with the pump to the lines of the console channel. -/
namespace SkyDaemon.Runtime

/-- A connection as the reads it will deliver; then the peer closes it, or a read
fails with the given error. -/
structure Socket where
  reads : List (List UInt8)
  failure : Option String

def closedEarly : String := "attach: connection closed before response headers completed"

/-- Reads until the header block is complete: its length, the buffer, the reads left. -/
def readHeaders (failure : Option String) (buf : List UInt8) :
    List (List UInt8) → Except String (Nat × List UInt8 × List (List UInt8))
  | [] => .error (failure.getD closedEarly)
  | chunk :: rest =>
      -- a read of zero bytes is the end of the stream
      if chunk = [] then .error closedEarly
      else
        match findDoubleCrlf (buf ++ chunk) with
        | some pos => .ok (pos + 4, buf ++ chunk, rest)
        | none => readHeaders failure (buf ++ chunk) rest

/-- The bytes read past the header block and the reads left for the pump. -/
def attach (http : HttpParser) (message : List UInt8 → Option String) (socket : Socket) :
    Except String (List UInt8 × List (List UInt8)) := do
  let (headerLen, buf, rest) ← readHeaders socket.failure [] socket.reads
  let (status, _) ← parseResponse http (buf.take headerLen)
  if status ≠ 101 then
    .error ("attach: unexpected status " ++ toString status ++ ": " ++
      extractDockerError message (buf.drop headerLen))
  else .ok (buf.drop headerLen, rest)

/-- The lines that reach the console channel. -/
def attachOutput (http : HttpParser) (message : List UInt8 → Option String) (capacity : Option Nat)
    (socket : Socket) : Except String (List String) := do
  let (leftover, rest) ← attach http message socket
  pure ((Pump.start leftover).output capacity rest).sent

/-! ## The header block -/

theorem findDoubleCrlf_append (found : findDoubleCrlf buf = some pos) (more : List UInt8) :
    pos + 4 ≤ buf.length ∧ findDoubleCrlf (buf ++ more) = some pos := by
  induction buf generalizing pos with
  | nil => contradiction
  | cons byte rest ih =>
    rw [findDoubleCrlf] at found
    rw [List.cons_append, findDoubleCrlf]
    split at found
    · rename_i here
      cases found
      have still : [cr, lf, cr, lf] <+: byte :: (rest ++ more) :=
        here.trans (List.prefix_append (byte :: rest) more)
      exact ⟨here.length_le, if_pos still⟩
    · rename_i elsewhere
      obtain ⟨pos, later, rfl⟩ := Option.map_eq_some_iff.mp found
      obtain ⟨fits, still⟩ := ih later
      have notHere : ¬ [cr, lf, cr, lf] <+: byte :: (rest ++ more) := by
        intro here
        have long : [cr, lf, cr, lf].length ≤ (byte :: rest).length := by
          simp only [List.length_cons, List.length_nil]
          omega
        exact elsewhere (List.prefix_of_prefix_length_le here
          (List.prefix_append (byte :: rest) more) long)
      rw [if_neg notHere, still]
      exact ⟨by simp only [List.length_cons]; omega, rfl⟩

theorem findDoubleCrlf_skip (free : cr ∉ line) (tail : List UInt8) :
    findDoubleCrlf (line ++ tail) = (findDoubleCrlf tail).map (· + line.length) := by
  induction line with
  | nil => simp
  | cons byte line ih =>
    simp only [List.mem_cons, not_or] at free
    have notHere : ¬ [cr, lf, cr, lf] <+: byte :: (line ++ tail) := fun here =>
      free.1 (List.cons_prefix_cons.mp here).1
    rw [List.cons_append, findDoubleCrlf, if_neg notHere, ih free.2, Option.map_map]
    congr 1

theorem findDoubleCrlf_line (other : byte ≠ cr) (tail : List UInt8) :
    findDoubleCrlf (cr :: lf :: byte :: tail) = (findDoubleCrlf (byte :: tail)).map (· + 2) := by
  have first : ¬ [cr, lf, cr, lf] <+: cr :: lf :: byte :: tail := by
    simp only [List.cons_prefix_cons, true_and, not_and]
    intro same
    exact absurd same.symm other
  have second : ¬ [cr, lf, cr, lf] <+: lf :: byte :: tail := fun here =>
    absurd (List.cons_prefix_cons.mp here).1 (by decide)
  rw [findDoubleCrlf, if_neg first, findDoubleCrlf, if_neg second, Option.map_map]
  rfl

/-- A response header block: a status line and header lines, each without line
breaks and not empty. -/
structure HeaderBlock where
  statusLine : List UInt8
  headerLines : List (List UInt8)
  clean : ∀ line ∈ statusLine :: headerLines, line ≠ [] ∧ cr ∉ line ∧ lf ∉ line

def crlfLines (lines : List (List UInt8)) : List UInt8 := lines.flatMap (· ++ [cr, lf]) ++ [cr, lf]

def HeaderBlock.bytes (block : HeaderBlock) : List UInt8 :=
  crlfLines (block.statusLine :: block.headerLines)

theorem findDoubleCrlf_lines (line : List UInt8) (lines : List (List UInt8))
    (clean : ∀ l ∈ line :: lines, l ≠ [] ∧ cr ∉ l ∧ lf ∉ l) (body : List UInt8) :
    findDoubleCrlf (crlfLines (line :: lines) ++ body) =
      some ((crlfLines (line :: lines)).length - 4) := by
  have free := (clean line List.mem_cons_self).2.1
  induction lines generalizing line with
  | nil =>
    have ends : findDoubleCrlf (cr :: lf :: cr :: lf :: body) = some 0 := by
      rw [findDoubleCrlf, if_pos ⟨body, rfl⟩]
    have shape : crlfLines [line] ++ body = line ++ (cr :: lf :: cr :: lf :: body) := by
      simp [crlfLines]
    rw [shape, findDoubleCrlf_skip free, ends]
    simp [crlfLines]
  | cons next lines ih =>
    have inner := clean next (by simp)
    cases shape : next with
    | nil => exact absurd shape inner.1
    | cons byte rest =>
      have other : byte ≠ cr := by
        rintro rfl
        exact inner.2.1 (shape ▸ List.mem_cons_self)
      have split : crlfLines (line :: (byte :: rest) :: lines) =
          line ++ (cr :: lf :: byte :: (rest ++ [cr, lf] ++ crlfLines lines)) := by
        simp [crlfLines]
      have tail : crlfLines ((byte :: rest) :: lines) = byte :: (rest ++ [cr, lf] ++ crlfLines lines) := by
        simp [crlfLines]
      have found := ih next (fun l member => clean l (List.mem_cons_of_mem _ member)) inner.2.1
      rw [shape, tail] at found
      rw [split, List.append_assoc, List.cons_append, List.cons_append, List.cons_append,
        findDoubleCrlf_skip free, findDoubleCrlf_line other, ← List.cons_append, found]
      simp [crlfLines]
      omega

theorem HeaderBlock.ends (block : HeaderBlock) (body : List UInt8) :
    findDoubleCrlf (block.bytes ++ body) = some (block.bytes.length - 4) :=
  findDoubleCrlf_lines block.statusLine block.headerLines block.clean body

/-- Reading stops with the read that completes the header block. -/
theorem readHeaders_ok {header body : List UInt8} {reads : List (List UInt8)}
    (ends : ∀ body, findDoubleCrlf (header ++ body) = some (header.length - 4))
    (long : 4 ≤ header.length) (nonempty : ∀ chunk ∈ reads, chunk ≠ [])
    (cuts : buf ++ reads.flatten = header ++ body) (short : buf.length < header.length)
    (failure : Option String) :
    ∃ buf' rest, readHeaders failure buf reads = .ok (header.length, buf', rest) ∧
      header.length ≤ buf'.length ∧ buf' ++ rest.flatten = header ++ body ∧
      ∀ chunk ∈ rest, chunk ≠ [] := by
  induction reads generalizing buf with
  | nil =>
    have lengths := congrArg List.length cuts
    simp only [List.flatten_nil, List.append_nil, List.length_append] at lengths
    omega
  | cons chunk rest ih =>
    have filled := nonempty chunk List.mem_cons_self
    have others := fun c member => nonempty c (List.mem_cons_of_mem chunk member)
    rw [List.flatten_cons, ← List.append_assoc] at cuts
    rw [readHeaders, if_neg filled]
    by_cases complete : header.length ≤ (buf ++ chunk).length
    · obtain ⟨more, split⟩ := List.prefix_of_prefix_length_le (List.prefix_append header body)
        (cuts ▸ List.prefix_append (buf ++ chunk) rest.flatten) complete
      have found := ends more
      rw [split] at found
      refine ⟨buf ++ chunk, rest, ?_, complete, cuts, others⟩
      rw [found]
      simp only [Nat.sub_add_cancel long]
    · have missing : findDoubleCrlf (buf ++ chunk) = none := by
        rw [Option.eq_none_iff_forall_ne_some]
        intro pos found
        obtain ⟨fits, still⟩ := findDoubleCrlf_append found rest.flatten
        rw [cuts, ends body] at still
        cases still
        omega
      rw [missing]
      exact ih others cuts (by omega)

/-! ## The console output -/

/-- The response accepts the upgrade and its body is not chunked. -/
def HttpParser.Upgrades (http : HttpParser) (block : HeaderBlock) : Prop :=
  ∃ head, http.parse block.bytes = .ok (some head) ∧ head.code = some 101 ∧
    isChunked head.headers = false

/-- `attach` hands the pump exactly the bytes after the header block. -/
theorem attach_ok {http : HttpParser} {block : HeaderBlock} {socket : Socket} {body : List UInt8}
    (upgrades : http.Upgrades block) (nonempty : ∀ chunk ∈ socket.reads, chunk ≠ [])
    (stream : socket.reads.flatten = block.bytes ++ body) (message : List UInt8 → Option String) :
    ∃ leftover rest, attach http message socket = .ok (leftover, rest) ∧
      leftover ++ rest.flatten = body ∧ ∀ chunk ∈ rest, chunk ≠ [] := by
  obtain ⟨head, parsed, code, plain⟩ := upgrades
  have long : 4 ≤ block.bytes.length := by
    simp only [HeaderBlock.bytes, crlfLines, List.flatMap_cons, List.length_append,
      List.length_cons, List.length_nil]
    omega
  have short : ([] : List UInt8).length < block.bytes.length := by
    rw [List.length_nil]
    omega
  obtain ⟨buf, rest, read, complete, cuts, others⟩ :=
    readHeaders_ok block.ends long nonempty stream short socket.failure
  obtain ⟨leftover, rfl⟩ : block.bytes <+: buf := List.prefix_of_prefix_length_le
    (cuts ▸ List.prefix_append block.bytes body) (List.prefix_append buf rest.flatten) complete
  rw [List.append_assoc] at cuts
  refine ⟨leftover, rest, ?_, List.append_cancel_left cuts, others⟩
  have status : parseResponse http block.bytes = .ok (101, block.bytes.drop head.headerLen) := by
    simp only [parseResponse, parsed, code, plain, Bool.false_eq_true, if_false]
  unfold attach
  rw [read]
  simp only [bind, Except.bind, List.take_left, status, List.drop_left, ne_eq, not_true_eq_false,
    if_false]

/-- The console channel gets the complete lines of the stdout and stderr payloads,
whatever the reads were; a receiver that is dropped early misses only the lines after
that. -/
theorem attachOutput_independent_of_reads (http : HttpParser) (message : List UInt8 → Option String)
    (block : HeaderBlock) (upgrades : http.Upgrades block) (frames : List Frame)
    (tail : List UInt8) (incomplete : Incomplete tail) (capacity : Option Nat) (socket : Socket)
    (nonempty : ∀ chunk ∈ socket.reads, chunk ≠ [])
    (stream : socket.reads.flatten = block.bytes ++ (frames.flatMap Frame.encode ++ tail)) :
    attachOutput http message capacity socket = .ok (received capacity
      (completeLines ((frames.filter Frame.isOutput).flatMap Frame.payload))) := by
  obtain ⟨leftover, rest, attached, body, others⟩ := attach_ok upgrades nonempty stream message
  unfold attachOutput
  rw [attached]
  exact congrArg Except.ok (Pump.sent_frames capacity others incomplete body)

def upgradedBlock : HeaderBlock where
  statusLine := Text.bytes "HTTP/1.1 101 UPGRADED"
  headerLines := [Text.bytes "Connection: Upgrade", Text.bytes "Upgrade: tcp"]
  clean := by decide

def upgradedHead : ResponseHead where
  headerLen := upgradedBlock.bytes.length
  code := some 101
  headers := [("Connection", Text.bytes "Upgrade"), ("Upgrade", Text.bytes "tcp")]

def upgradedParser : HttpParser where
  parse buf := if buf = upgradedBlock.bytes then .ok (some upgradedHead) else .ok none

/-- A `\r` and its newline, and the two bytes of a character, in different frames;
between them a frame that is neither stdout nor stderr. -/
def consoleFrames : List Frame :=
  [⟨1, (0, 0, 0), [104], by decide⟩, ⟨2, (0, 0, 0), [105, 13], by decide⟩,
    ⟨0, (0, 0, 0), [120, 10], by decide⟩, ⟨1, (0, 0, 0), [10, 195], by decide⟩,
    ⟨1, (0, 0, 0), [169, 10, 63], by decide⟩]

def consoleStream : List UInt8 :=
  upgradedBlock.bytes ++ (consoleFrames.flatMap Frame.encode ++ [1, 0, 0])

theorem attachOutput_byte_by_byte :
    attachOutput upgradedParser (fun _ => none) none ⟨consoleStream.map fun byte => [byte], none⟩ =
      .ok ["hi", "é"] := by
  have upgrades : upgradedParser.Upgrades upgradedBlock :=
    ⟨upgradedHead, by simp only [upgradedParser, if_true], rfl, by decide⟩
  have incomplete : Incomplete [1, 0, 0] :=
    ⟨⟨1, (0, 0, 0), [], by decide⟩, ⟨[0, 0, 0, 0, 0], rfl⟩, by decide⟩
  have nonempty : ∀ chunk ∈ consoleStream.map fun byte => [byte], chunk ≠ [] := by
    intro chunk member
    obtain ⟨byte, -, rfl⟩ := List.mem_map.mp member
    exact List.cons_ne_nil byte []
  exact attachOutput_independent_of_reads upgradedParser (fun _ => none) upgradedBlock upgrades
    consoleFrames [1, 0, 0] incomplete none ⟨_, none⟩ nonempty rfl

end SkyDaemon.Runtime
