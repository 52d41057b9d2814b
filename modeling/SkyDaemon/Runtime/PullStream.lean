import SkyDaemon.Foundation.Json
import SkyDaemon.Runtime.Chunked
import SkyDaemon.Runtime.CreateLoop

/-! The progress stream of a pull: objects on lines of their own, in chunks of any size or in none.
An error in any of them, in either of its two places, fails the pull, and nothing else does. -/
namespace SkyDaemon.Runtime
open Program Json

/-! ## Objects -/

def errDetail : Decoder (Option String) := asStruct ["message"] (optionalField asString "message")

/-- The derived decoder of one line. -/
def PullLine.decode : Decoder PullLine := asStruct ["error", "errorDetail"] fun fields => do
  let error ← optionalField asString "error" fields
  let errorDetail ← optionalField errDetail "errorDetail" fields
  pure { error, errorDetail }

def SpellsDetail : Spelling (Option String) := fun message json =>
  ∃ fields, json = .object fields ∧ Single ["message"] fields ∧
    GivenIfSome SpellsString message (fields.lookup "message")

/-- Both fields are absent, `null` or of their type; there may be others. -/
structure LineFields (line : PullLine) (fields : Fields) : Prop where
  single : Single ["error", "errorDetail"] fields
  error : GivenIfSome SpellsString line.error (fields.lookup "error")
  errorDetail : GivenIfSome SpellsDetail line.errorDetail (fields.lookup "errorDetail")

def SpellsLine : Spelling PullLine := fun line json => ∃ fields, json = .object fields ∧ LineFields line fields

theorem errDetail_reads : Reads errDetail SpellsDetail := by
  rintro message json ⟨fields, rfl, single, given⟩
  rw [errDetail, asStruct_object single]
  exact given.optionalField asString_reads rfl

theorem PullLine.decode_reads : Reads PullLine.decode SpellsLine := by
  rintro line json ⟨fields, rfl, spelled⟩
  rw [PullLine.decode, asStruct_object spelled.single, spelled.error.optionalField asString_reads rfl,
    spelled.errorDetail.optionalField errDetail_reads rfl]
  rfl

/-- The object reports an error, as text or in its detail. -/
def PullLine.Fails (line : PullLine) : Prop :=
  (∃ text, line.error = some text ∧ text ≠ "") ∨ ∃ text, line.errorDetail = some (some text) ∧ text ≠ ""

/-- What one line contributes to `extract_pull_error`. -/
def PullLine.message (line : PullLine) : Option String :=
  (line.error.filter (· ≠ "")).or (line.errorDetail.join.filter (· ≠ ""))

theorem filter_nonempty_none (text : Option String) :
    text.filter (· ≠ "") = none ↔ ¬ ∃ value, text = some value ∧ value ≠ "" := by
  cases text <;> simp

theorem PullLine.message_none (line : PullLine) : line.message = none ↔ ¬ line.Fails := by
  rw [message, Option.or_eq_none_iff, filter_nonempty_none, filter_nonempty_none, Fails, not_or]
  apply and_congr_right
  intro _
  rw [not_iff_not]
  cases line.errorDetail <;> simp

/-- A single-line text with the value it stands for. -/
structure ProgressObject where
  text : List UInt8
  json : Json
  line : PullLine
  spelled : SpellsLine line json
  single : lf ∉ text
  /-- The opening brace. -/
  opens : 123 ∈ text

/-! ## Streams -/

inductive StreamItem where
  | object (progress : ProgressObject)
  | blank (bytes : List UInt8) (single : lf ∉ bytes) (white : bytes.all isAsciiWhitespace = true)

def StreamItem.text : StreamItem → List UInt8
  | .object progress => progress.text
  | .blank bytes _ _ => bytes

def StreamItem.object? : StreamItem → Option ProgressObject
  | .object progress => some progress
  | .blank _ _ _ => none

theorem StreamItem.single (item : StreamItem) : lf ∉ item.text := by
  cases item with
  | object progress => exact progress.single
  | blank bytes single white => exact single

/-- Lines with their line breaks, `true` for `\r\n`, and what stands behind the last of them. -/
structure ProgressStream where
  lines : List (StreamItem × Bool)
  last : StreamItem

namespace ProgressStream

/-- A line as it is between two `\n`. -/
def line (entry : StreamItem × Bool) : List UInt8 := entry.1.text ++ (if entry.2 then [cr] else [])

def text (stream : ProgressStream) : List UInt8 :=
  stream.lines.flatMap (fun entry => line entry ++ [lf]) ++ stream.last.text

def objects (stream : ProgressStream) : List ProgressObject :=
  (stream.lines.map Prod.fst ++ [stream.last]).filterMap StreamItem.object?

theorem line_single (entry : StreamItem × Bool) : lf ∉ line entry := by
  rw [line, List.mem_append, not_or]
  refine ⟨entry.1.single, ?_⟩
  cases entry.2 <;> simp [cr, lf]

theorem split_text (stream : ProgressStream) :
    stream.text.splitOn lf = stream.lines.map line ++ [stream.last.text] := by
  have pieces : stream.text = (stream.lines.map line).flatMap (· ++ [lf]) ++ stream.last.text := by
    rw [text, List.flatMap_map]
  rw [pieces]
  apply Text.splitOn_terminated _ stream.last.single
  intro piece member
  obtain ⟨entry, -, rfl⟩ := List.mem_map.mp member
  exact line_single entry

/-- Every item with what stands between it and the next `\n`. -/
def entries (stream : ProgressStream) : List (StreamItem × List UInt8) :=
  stream.lines.map (fun entry => (entry.1, if entry.2 then [cr] else [])) ++ [(stream.last, [])]

theorem split_entries (stream : ProgressStream) :
    stream.text.splitOn lf = stream.entries.map fun entry => entry.1.text ++ entry.2 := by
  rw [split_text, entries, List.map_append, List.map_map, List.map_singleton, List.append_nil]
  rfl

theorem mem_objects {stream : ProgressStream} {object : ProgressObject} :
    object ∈ stream.objects ↔ ∃ entry ∈ stream.entries, entry.1.object? = some object := by
  have items : stream.lines.map Prod.fst ++ [stream.last] = stream.entries.map Prod.fst := by
    rw [entries, List.map_append, List.map_map]
    rfl
  rw [objects, items, List.filterMap_map, List.mem_filterMap]
  rfl

theorem entries_ending (stream : ProgressStream) : ∀ entry ∈ stream.entries, entry.2 ∈ [[], [cr]] := by
  intro entry member
  rcases List.mem_append.mp member with before | last
  · obtain ⟨⟨item, carriage⟩, -, rfl⟩ := List.mem_map.mp before
    cases carriage <;> simp
  · cases List.mem_singleton.mp last
    exact List.mem_cons_self

end ProgressStream

/-! ## Errors of a stream -/

/-- The parser reads the object, with or without a carriage return behind it. -/
def Parses (parse : List UInt8 → Option Json) (object : ProgressObject) : Prop :=
  ∀ ending ∈ [[], [cr]], parse (object.text ++ ending) = some object.json

/-- The closure of `extract_pull_error`. -/
def lineError (decode : List UInt8 → Option PullLine) (line : List UInt8) : Option String :=
  if line.all isAsciiWhitespace then none else (decode line).bind PullLine.message

theorem extractPullError_eq (decode : List UInt8 → Option PullLine) (body : List UInt8) :
    extractPullError decode body = (body.splitOn lf).findSome? (lineError decode) := rfl

section Errors
variable {parse : List UInt8 → Option Json} {decode : List UInt8 → Option PullLine}
  (derived : ∀ bytes, decode bytes = (parse bytes).bind PullLine.decode)
include derived

theorem lineError_item {item : StreamItem} (parses : ∀ object, item.object? = some object → Parses parse object)
    {ending : List UInt8} (ends : ending ∈ [[], [cr]]) :
    lineError decode (item.text ++ ending) = none ↔ ∀ object, item.object? = some object → ¬ object.line.Fails := by
  cases item with
  | blank bytes single white =>
    have allWhite : (bytes ++ ending).all isAsciiWhitespace = true := by
      rw [List.all_append, white]
      rcases List.mem_cons.mp ends with rfl | carriage
      · rfl
      · cases List.mem_singleton.mp carriage
        rfl
    simp [lineError, StreamItem.text, StreamItem.object?, allWhite]
  | object progress =>
    have notWhite : ¬ (progress.text ++ ending).all isAsciiWhitespace = true := by
      intro white
      have brace := List.all_eq_true.mp white 123 (List.mem_append_left _ progress.opens)
      contradiction
    have read : decode (progress.text ++ ending) = some progress.line := by
      rw [derived, parses progress rfl ending ends, Option.bind_some, PullLine.decode_reads _ _ progress.spelled]
    rw [lineError, StreamItem.text, if_neg notWhite, read, Option.bind_some, PullLine.message_none]
    simp [StreamItem.object?]

theorem extractPullError_stream {stream : ProgressStream} (parses : ∀ object ∈ stream.objects, Parses parse object) :
    extractPullError decode stream.text = none ↔ ∀ object ∈ stream.objects, ¬ object.line.Fails := by
  have known (entry : StreamItem × List UInt8) (member : entry ∈ stream.entries) :
      lineError decode (entry.1.text ++ entry.2) = none ↔
        ∀ object, entry.1.object? = some object → ¬ object.line.Fails :=
    lineError_item derived (fun object is => parses object (ProgressStream.mem_objects.mpr ⟨entry, member, is⟩))
      (stream.entries_ending entry member)
  rw [extractPullError_eq, stream.split_entries, List.findSome?_eq_none_iff]
  constructor
  · intro silent object member
    obtain ⟨entry, inside, is⟩ := ProgressStream.mem_objects.mp member
    exact (known entry inside).mp (silent _ (List.mem_map_of_mem inside)) object is
  · intro clean line member
    obtain ⟨entry, inside, rfl⟩ := List.mem_map.mp member
    exact (known entry inside).mpr fun object is => clean object (ProgressStream.mem_objects.mpr ⟨entry, inside, is⟩)

end Errors

/-! ## Responses -/

/-- The body of a response whose headers are given, in chunks or plain. -/
inductive Carries (headers : List (String × List UInt8)) (content : List UInt8) : List UInt8 → Prop where
  | plain (unchunked : isChunked headers = false) : Carries headers content content
  | chunked (marked : isChunked headers = true) (chunks : List Chunk) (last : SizeLine 0) (trailer : List UInt8)
      (whole : chunks.flatMap Chunk.data = content) : Carries headers content (encodeBody chunks last ++ trailer)

theorem Carries.parseResponse {http : HttpParser} {head body : List UInt8} (carries : Carries headers content body)
    (read : http.parse (head ++ body) = .ok (some ⟨head.length, some code, headers⟩)) :
    parseResponse http (head ++ body) = .ok (code, content) := by
  rw [Runtime.parseResponse, read]
  simp only [List.drop_left]
  cases carries with
  | plain unchunked => rw [unchunked, if_neg (by simp)]
  | chunked marked chunks last trailer whole =>
    have complete := (dechunkLoop_body chunks last (List.prefix_refl (encodeBody chunks last ++ trailer))
      (Nat.lt_succ_self _) []).1 (List.prefix_append _ _)
    rw [marked, if_pos rfl, dechunk, complete, List.nil_append, whole]
    rfl

/-- A failed pull is never reported as success: whatever the stream and however it is cut into
chunks, `pull_image` fails exactly if some object of the stream reports an error. -/
theorem pullImage_fails_iff {docker : DockerRuntime} {parse : List UInt8 → Option Json}
    (derived : ∀ bytes, docker.pullLine bytes = (parse bytes).bind PullLine.decode) (stream : ProgressStream)
    (parses : ∀ object ∈ stream.objects, Parses parse object) (image : String)
    {oracle : DockerHistory → Request → Except String (List UInt8)} {head body : List UInt8}
    (answered : ∀ history, oracle history ⟨.post, pullPath image, none⟩ = .ok (head ++ body))
    (read : docker.http.parse (head ++ body) = .ok (some ⟨head.length, some 200, headers⟩))
    (carries : Carries headers stream.text body) :
    (∃ message, ((pullImage docker image).transcript oracle []).2 = .error message) ↔
      ∃ object ∈ stream.objects, object.line.Fails := by
  obtain ⟨made, ran, answers⟩ := transcript_answered oracle (pullImage docker image)
  obtain ⟨answer, rfl, pulled⟩ := pullImage_ran ran
  obtain ⟨before, same⟩ := answers _ List.mem_cons_self
  have received : response docker.toDecoders answer = .ok (200, stream.text) := by
    rw [show answer = .ok (head ++ body) from same.trans (answered before)]
    exact carries.parseResponse read
  have clean : Pulled docker answer ↔ extractPullError docker.pullLine stream.text = none := by
    simp [Pulled, received]
  rw [clean, extractPullError_stream derived parses] at pulled
  constructor
  · rintro ⟨message, failed⟩
    by_contra none
    have clean : ∀ object ∈ stream.objects, ¬ object.line.Fails := by
      intro object member fails
      exact none ⟨object, member, fails⟩
    rw [pulled.mpr clean] at failed
    cases failed
  · rintro ⟨object, member, fails⟩
    cases result : ((pullImage docker image).transcript oracle []).2 with
    | error message => exact ⟨message, rfl⟩
    | ok => exact absurd fails (pulled.mp result object member)

/-! A line break, then `{"error":"denied"}`, cut inside the key. -/

def deniedText : List UInt8 := [123, 34, 101, 114, 114, 111, 114, 34, 58, 34, 100, 101, 110, 105, 101, 100, 34, 125]

def deniedJson : Json := .object [("error", .string "denied")]

def deniedObject : ProgressObject where
  text := deniedText
  json := deniedJson
  line := ⟨some "denied", none⟩
  spelled := ⟨_, rfl, by decide, ⟨_, rfl, rfl⟩, .inl rfl⟩
  single := by decide
  opens := by decide

def deniedStream : ProgressStream := ⟨[(.blank [] (by decide) rfl, true)], .object deniedObject⟩

def deniedParse (bytes : List UInt8) : Option Json :=
  if bytes = deniedText ∨ bytes = deniedText ++ [cr] then some deniedJson else none

def chunkedHeaders : List (String × List UInt8) := [("Transfer-Encoding", Text.bytes "chunked")]

def chunkedHead : List UInt8 := Text.bytes "HTTP/1.1 200 OK\r\nTransfer-Encoding: chunked\r\n\r\n"

def deniedDocker : DockerRuntime where
  http := ⟨fun buf =>
    if chunkedHead <+: buf then .ok (some ⟨chunkedHead.length, some 200, chunkedHeaders⟩) else .ok none⟩
  message _ := none
  portBindings _ := none
  containers _ := none
  dns := []
  encode _ := .error ""
  pullLine bytes := (deniedParse bytes).bind PullLine.decode
  created _ := none
  running _ := none
  managed _ := none
  sample _ := none

def deniedChunks : List Chunk :=
  [⟨[13, 10, 123, 34, 101, 114, 114], by decide, by decide, .bare ['7'] (by decide) (by decide)⟩,
    ⟨[111, 114, 34, 58, 34, 100, 101, 110, 105, 101, 100, 34, 125], by decide, by decide,
      .bare ['d'] (by decide) (by decide)⟩]

theorem denied_pull_fails : ∃ message, ((pullImage deniedDocker "game").transcript
    (fun _ _ => .ok (chunkedHead ++ (encodeBody deniedChunks sampleLast ++ []))) []).2 = .error message := by
  have read : deniedDocker.http.parse (chunkedHead ++ (encodeBody deniedChunks sampleLast ++ [])) =
      .ok (some ⟨chunkedHead.length, some 200, chunkedHeaders⟩) := by
    simp only [deniedDocker, List.prefix_append, if_true]
  have carries : Carries chunkedHeaders deniedStream.text (encodeBody deniedChunks sampleLast ++ []) :=
    .chunked (by decide +kernel) deniedChunks sampleLast [] rfl
  have parses : ∀ object ∈ deniedStream.objects, Parses deniedParse object := by
    intro object member
    obtain rfl := List.mem_singleton.mp (show object ∈ [deniedObject] from member)
    intro ending ends
    rcases List.mem_cons.mp ends with rfl | carriage
    · exact if_pos (.inl (List.append_nil _))
    · cases List.mem_singleton.mp carriage
      exact if_pos (.inr rfl)
  apply (@pullImage_fails_iff chunkedHeaders deniedDocker deniedParse (fun _ => rfl) deniedStream parses "game"
    _ chunkedHead _ (fun _ => rfl) read carries).mpr
  exact ⟨deniedObject, List.mem_singleton_self _, .inl ⟨"denied", rfl, by decide⟩⟩

end SkyDaemon.Runtime
