import SkyDaemon.Agent.Dispatcher
import SkyDaemon.Runtime.QueryEncoding

/-! The shape of what is written to Docker. Each exchange has a fixed request in mind, with
the text it is given as one segment of the path or as one value of the query. Image references
are encoded and always read back so. Names and ids are written as they are, and the request is
the one in mind exactly if every byte of the text stands for itself where it is put. -/
namespace SkyDaemon.Runtime
open Program Protocol
open HttpRequest (segmentByte queryByte valueByte tokenByte fieldByte blank percent slash percentEncode CleanHeader)
open Agent (RuntimeCall)

/-! ## Texts of requests -/

def pathText : List String → String
  | [] => ""
  | piece :: pieces => "/" ++ piece ++ pathText pieces

def targetText (pieces : List String) (query : Option String) : String :=
  pathText pieces ++ (query.map ("?" ++ ·)).getD ""

def headersText : List (String × String) → String
  | [] => "\r\n"
  | (name, value) :: headers => name ++ ": " ++ value ++ "\r\n" ++ headersText headers

def headText (method : Method) (target : String) (headers : List (String × String)) : String :=
  method.text ++ " " ++ target ++ " HTTP/1.1\r\n" ++ headersText headers

def pairs (texts : List (String × String)) : List (List UInt8 × List UInt8) :=
  texts.map fun (name, value) => (Text.bytes name, Text.bytes value)

theorem bytes_pathText (pieces : List String) :
    Text.bytes (pathText pieces) = (pieces.map Text.bytes).flatMap (slash :: ·) := by
  induction pieces with
  | nil => rfl
  | cons piece pieces ih =>
    rw [pathText, Text.bytes_append, Text.bytes_append, ih]
    rfl

theorem bytes_targetText (pieces : List String) (query : Option String) :
    Text.bytes (targetText pieces query) = HttpRequest.target (pieces.map Text.bytes) (query.map Text.bytes) := by
  rw [targetText, Text.bytes_append, bytes_pathText, HttpRequest.target]
  cases query with
  | none => rfl
  | some query =>
    rw [Option.map_some, Option.getD_some, Text.bytes_append]
    rfl

theorem bytes_headersText (headers : List (String × String)) :
    Text.bytes (headersText headers) = (pairs headers).flatMap HttpRequest.field ++ [cr, lf] := by
  induction headers with
  | nil => rfl
  | cons header headers ih =>
    obtain ⟨name, value⟩ := header
    rw [headersText, Text.bytes_append, Text.bytes_append, Text.bytes_append, Text.bytes_append, ih]
    simp only [pairs, List.map_cons, List.flatMap_cons, HttpRequest.field, List.append_assoc, List.cons_append]
    rfl

theorem bytes_headText (method : Method) (target : String) (headers : List (String × String)) :
    Text.bytes (headText method target headers) =
      HttpRequest.render (Text.bytes method.text) (Text.bytes target) (pairs headers) := by
  rw [headText, Text.bytes_append, Text.bytes_append, Text.bytes_append, Text.bytes_append, bytes_headersText,
    HttpRequest.render]
  simp only [List.append_assoc]
  rfl

/-- The headers of `request`. -/
def requestHeaders (body : Option (List UInt8)) : List (String × String) :=
  [("Host", "docker"), ("Connection", "close")] ++
    match body with
    | some body => [("Content-Type", "application/json"), ("Content-Length", toString body.length)]
    | none => []

def attachHeaders : List (String × String) := [("Host", "docker"), ("Connection", "Upgrade"), ("Upgrade", "tcp")]

theorem Request.head_text (request : Request) :
    request.head =
      Text.bytes (headText request.method ("/" ++ apiVersion ++ request.path) (requestHeaders request.body)) := by
  obtain ⟨method, path, body⟩ := request
  rw [Request.head]
  refine congrArg Text.bytes (String.toList_inj.mp ?_)
  cases body with
  | none => simp [headText, headersText, requestHeaders, String.toList_append]
  | some body => simp [headText, headersText, requestHeaders, String.toList_append]

theorem Request.head_target {request : Request} {pieces : List String} {query : Option String}
    (same : "/" ++ apiVersion ++ request.path = targetText pieces query) :
    request.head = Text.bytes (headText request.method (targetText pieces query) (requestHeaders request.body)) := by
  rw [Request.head_text, same]

/-! ## Headers and queries -/

def CleanText (header : String × String) : Prop :=
  header.1 ≠ "" ∧ (Text.bytes header.1).all tokenByte = true ∧
    ((Text.bytes header.2).all fun byte => fieldByte byte && !blank byte) = true

instance : DecidablePred CleanText := fun _ => inferInstanceAs (Decidable (_ ∧ _ ∧ _))

theorem bytes_ne_nil {s : String} (nonempty : s ≠ "") : Text.bytes s ≠ [] :=
  fun none => nonempty (Text.bytes_injective (none.trans (by decide : [] = Text.bytes "")))

theorem CleanText.header {header : String × String} (clean : CleanText header) :
    CleanHeader (Text.bytes header.1, Text.bytes header.2) := by
  obtain ⟨named, token, value⟩ := clean
  have unblank {byte : UInt8} (member : byte ∈ Text.bytes header.2) : fieldByte byte = true ∧ blank byte = false := by
    simpa using List.all_eq_true.mp value byte member
  constructor
  · exact bytes_ne_nil named
  · exact token
  · exact List.all_eq_true.mpr fun byte member => (unblank member).1
  · exact fun byte first => (unblank (List.mem_of_head? first)).2
  · exact fun byte last => (unblank (List.mem_of_getLast? last)).2

theorem clean_pairs {headers : List (String × String)} (clean : ∀ header ∈ headers, CleanText header) :
    ∀ header ∈ pairs headers, CleanHeader header := by
  intro header member
  obtain ⟨text, inside, rfl⟩ := List.mem_map.mp member
  exact (clean text inside).header

theorem nat_all {test : UInt8 → Bool} (digits : ∀ digit < 10, test (UInt8.ofNat (48 + digit)) = true) (n : Nat) :
    (Text.bytes (toString n)).all test = true := by
  refine List.all_eq_true.mpr fun byte member => ?_
  obtain ⟨low, high⟩ := Text.bytes_nat n byte member
  have low : 48 ≤ byte.toNat := UInt8.le_iff_toNat_le.mp low
  have high : byte.toNat ≤ 57 := UInt8.le_iff_toNat_le.mp high
  have digit := digits (byte.toNat - 48) (by omega)
  rwa [Nat.add_sub_cancel' low, UInt8.ofNat_toNat] at digit

theorem requestHeaders_clean (body : Option (List UInt8)) :
    ∀ header ∈ pairs (requestHeaders body), CleanHeader header := by
  refine clean_pairs ?_
  cases body with
  | none => decide +kernel
  | some body =>
    have fixed : ∀ header ∈ [("Host", "docker"), ("Connection", "close"), ("Content-Type", "application/json")],
        CleanText header := by decide +kernel
    intro header member
    rcases List.mem_append.mp member with first | second
    · exact fixed header (List.mem_append_left [("Content-Type", "application/json")] first)
    · rcases List.mem_cons.mp second with rfl | last
      · exact fixed _ (by simp)
      · cases List.mem_singleton.mp last
        have name : "Content-Length" ≠ "" ∧ (Text.bytes "Content-Length").all tokenByte = true := by decide +kernel
        exact ⟨name.1, name.2, nat_all (by decide) body.length⟩

theorem method_token (method : Method) :
    Text.bytes method.text ≠ [] ∧ (Text.bytes method.text).all tokenByte = true := by
  cases method <;> decide +kernel

/-! ## Exchanges -/

/-- One exchange with Docker and the text that goes into its request. -/
inductive Operation where
  | create (name : String) (body : List UInt8)
  | removeByName (name : String)
  | start (id : String)
  | stop (id : String) (seconds : Nat)
  | kill (id : String)
  | remove (id : String)
  | inspect (id : String)
  | stats (id : String)
  | attach (id : String)
  | pullImage (image : String)
  | imagePresent (image : String)
  | list

namespace Operation

/-- The bytes that are written before a body. -/
def head : Operation → List UInt8
  | .create name body => Request.head ⟨.post, createPath name, some body⟩
  | .removeByName name => Request.head ⟨.delete, removePath name, none⟩
  | .start id => Request.head ⟨.post, startPath id, none⟩
  | .stop id seconds => Request.head ⟨.post, stopPath id seconds, none⟩
  | .kill id => Request.head ⟨.post, killPath id, none⟩
  | .remove id => Request.head ⟨.delete, removePath id, none⟩
  | .inspect id => Request.head ⟨.get, inspectPath id, none⟩
  | .stats id => Request.head ⟨.get, statsPath id, none⟩
  | .attach id => attachHead id
  | .pullImage image => Request.head ⟨.post, pullPath image, none⟩
  | .imagePresent image => Request.head ⟨.get, imagePath image, none⟩
  | .list => Request.head ⟨.get, listPath, none⟩

/-- A request about one container. -/
def container (method : Method) (id : String) (after : List String) (params headers : List (String × String)) :
    HttpRequest where
  method := Text.bytes method.text
  segments := [Text.bytes apiVersion, Text.bytes "containers"] ++ Text.bytes id :: after.map Text.bytes
  params := pairs params
  headers := pairs headers

def pullParams (image : String) : List (String × String) :=
  let (name, tag) := splitImageRef image
  ("fromImage", name) :: if tag = "" then [] else [("tag", tag)]

/-- The request in mind. An image is one run of segments, split where it has a `/`. -/
def expected : Operation → HttpRequest
  | .create name body =>
      { method := Text.bytes Method.post.text
        segments := ([apiVersion, "containers", "create"]).map Text.bytes
        params := pairs (if name = "" then [] else [("name", name)])
        headers := pairs (requestHeaders (some body)) }
  | .removeByName name => container .delete name [] [("force", "true")] (requestHeaders none)
  | .start id => container .post id ["start"] [] (requestHeaders none)
  | .stop id seconds => container .post id ["stop"] [("t", toString seconds)] (requestHeaders none)
  | .kill id => container .post id ["kill"] [] (requestHeaders none)
  | .remove id => container .delete id [] [("force", "true")] (requestHeaders none)
  | .inspect id => container .get id ["json"] [] (requestHeaders none)
  | .stats id => container .get id ["stats"] [("stream", "false")] (requestHeaders none)
  | .attach id =>
      container .post id ["attach"] [("stream", "1"), ("stdin", "1"), ("stdout", "1"), ("stderr", "1")] attachHeaders
  | .pullImage image =>
      { method := Text.bytes Method.post.text
        segments := ([apiVersion, "images", "create"]).map Text.bytes
        params := pairs (pullParams image)
        headers := pairs (requestHeaders none) }
  | .imagePresent image =>
      { method := Text.bytes Method.get.text
        segments :=
          [Text.bytes apiVersion, Text.bytes "images"] ++ (Text.bytes image).splitOn slash ++ [Text.bytes "json"]
        params := []
        headers := pairs (requestHeaders none) }
  | .list =>
      { method := Text.bytes Method.get.text
        segments := ([apiVersion, "containers", "json"]).map Text.bytes
        params := pairs [("all", "true")]
        headers := pairs (requestHeaders none) }

/-- Every byte of the text stands for itself where the text is put. -/
def Safe : Operation → Prop
  | .create name _ => (Text.bytes name).all valueByte = true
  | .removeByName text | .start text | .stop text _ | .kill text | .remove text | .inspect text | .stats text
  | .attach text => (Text.bytes text).all segmentByte = true
  | .pullImage _ | .imagePresent _ | .list => True

theorem container_iff {query : Option String} {after : List String} {params headers : List (String × String)}
    (plain : ∀ piece ∈ after, (Text.bytes piece).all segmentByte = true)
    (queried : HttpRequest.parseQuery ((query.map Text.bytes).getD []) = some (pairs params))
    (valid : (((query.map Text.bytes).getD []).all fun byte => queryByte byte || byte == percent) = true)
    (clean : ∀ header ∈ pairs headers, CleanHeader header) (method : Method) (id : String) :
    HttpRequest.parse
        (Text.bytes (headText method (targetText (apiVersion :: "containers" :: id :: after) query) headers)) =
        some (container method id after params headers, []) ↔
      (Text.bytes id).all segmentByte = true := by
  obtain ⟨named, token⟩ := method_token method
  have fixed : ∀ piece ∈ [Text.bytes apiVersion, Text.bytes "containers"], piece.all segmentByte = true := by
    decide +kernel
  rw [bytes_headText, bytes_targetText]
  refine HttpRequest.parse_segment_iff named token clean fixed ?_ queried valid (Text.bytes id)
  intro piece member
  obtain ⟨text, inside, rfl⟩ := List.mem_map.mp member
  exact plain text inside

/-- A container request of `request`, by what its path has behind the id. -/
theorem request_iff {method : Method} {id rest : String} {after : List String} {params : List (String × String)}
    (query : Option String) (same : rest = targetText after query)
    (plain : ∀ piece ∈ after, (Text.bytes piece).all segmentByte = true)
    (queried : HttpRequest.parseQuery ((query.map Text.bytes).getD []) = some (pairs params))
    (valid : (((query.map Text.bytes).getD []).all fun byte => queryByte byte || byte == percent) = true) :
    HttpRequest.parse (Request.head ⟨method, "/containers/" ++ id ++ rest, none⟩) =
        some (container method id after params (requestHeaders none), []) ↔
      (Text.bytes id).all segmentByte = true := by
  have whole : "/" ++ apiVersion ++ ("/containers/" ++ id ++ targetText after query) =
      targetText (apiVersion :: "containers" :: id :: after) query := by
    rewrite [← String.toList_inj]
    simp [targetText, pathText]
  subst same
  rw [Request.head_target whole]
  exact container_iff plain queried valid (requestHeaders_clean none) method id

/-! ## Pulling -/

/-- The bytes of a query piece. -/
theorem bytes_piece (key value : String) :
    Text.bytes (key ++ "=" ++ value) = Text.bytes key ++ HttpRequest.equals :: Text.bytes value := by
  rw [Text.bytes_append, Text.bytes_append, List.append_assoc]
  rfl

def pullQuery (image : String) : String :=
  let (name, tag) := splitImageRef image
  ("fromImage" ++ "=" ++ encodeQuery name) ++ (if tag = "" then "" else "&" ++ ("tag" ++ "=" ++ encodeQuery tag))

theorem pullPath_text (image : String) :
    "/" ++ apiVersion ++ pullPath image = targetText [apiVersion, "images", "create"] (some (pullQuery image)) := by
  unfold pullPath pullQuery
  obtain ⟨name, tag⟩ := splitImageRef image
  dsimp only
  split
  · rewrite [← String.toList_inj]
    simp [targetText, pathText]
  · rewrite [← String.toList_inj]
    simp [targetText, pathText]

theorem pullQuery_read (image : String) :
    HttpRequest.parseQuery (Text.bytes (pullQuery image)) = some (pairs (pullParams image)) ∧
      ((Text.bytes (pullQuery image)).all fun byte => queryByte byte || byte == percent) = true := by
  have plain : ∀ key ∈ ["fromImage", "tag"],
      ((Text.bytes key).all fun byte => valueByte byte && byte != HttpRequest.equals) = true := by decide +kernel
  rw [pullQuery, pullParams]
  obtain ⟨name, tag⟩ := splitImageRef image
  have escaped := encodeQuery_escaped name
  have first := HttpRequest.param_escaped (plain "fromImage" (by simp)) escaped (formDecode_encodeQuery name)
  have single := HttpRequest.param_single (plain "fromImage" (by simp)) escaped
  have valid := HttpRequest.param_valid (plain "fromImage" (by simp)) escaped
  dsimp only
  split
  · rw [String.append_empty, bytes_piece]
    exact ⟨HttpRequest.parseQuery_single (by simp) single first, valid⟩
  · have escaped' := encodeQuery_escaped tag
    have second := HttpRequest.parseQuery_single (by simp) (HttpRequest.param_single (plain "tag" (by simp)) escaped')
      (HttpRequest.param_escaped (plain "tag" (by simp)) escaped' (formDecode_encodeQuery tag))
    have valid' := HttpRequest.param_valid (plain "tag" (by simp)) escaped'
    rw [Text.bytes_append (_ ++ _ ++ _), Text.bytes_append "&", bytes_piece, bytes_piece]
    refine ⟨HttpRequest.parseQuery_append (by simp) single first second, ?_⟩
    rw [List.all_append, valid, List.all_append, valid']
    rfl

/-! ## Each exchange -/

/-- A request that takes no text as it is. -/
theorem fixed_read {method : Method} {path : String} {pieces : List String} {params : List (String × String)}
    (body : Option (List UInt8)) (query : Option String) (same : "/" ++ apiVersion ++ path = targetText pieces query)
    (nonempty : pieces ≠ []) (plain : ∀ piece ∈ pieces, (Text.bytes piece).all segmentByte = true)
    (queried : HttpRequest.parseQuery ((query.map Text.bytes).getD []) = some (pairs params))
    (valid : (((query.map Text.bytes).getD []).all fun byte => queryByte byte || byte == percent) = true) :
    HttpRequest.parse (Request.head ⟨method, path, body⟩) =
      some (⟨Text.bytes method.text, pieces.map Text.bytes, pairs params, pairs (requestHeaders body)⟩, []) := by
  obtain ⟨named, token⟩ := method_token method
  rw [Request.head_target same, bytes_headText, bytes_targetText]
  refine HttpRequest.parse_render (HttpRequest.mapM_plain fun piece member => ?_) named token (by simpa using nonempty)
    queried valid (requestHeaders_clean body)
  obtain ⟨text, inside, rfl⟩ := List.mem_map.mp member
  exact plain text inside

theorem imagePresent_read (image : String) :
    HttpRequest.parse (head (.imagePresent image)) = some (expected (.imagePresent image), []) := by
  have same : "/" ++ apiVersion ++ imagePath image =
      targetText [apiVersion, "images", encodeQuery image, "json"] none :=
    String.toList_injective (by simp [imagePath, targetText, pathText])
  have split : HttpRequest.target ([apiVersion, "images", encodeQuery image, "json"].map Text.bytes) none =
      HttpRequest.target ([Text.bytes apiVersion, Text.bytes "images"] ++
        ((Text.bytes image).splitOn slash).map (percentEncode keptInQuery) ++ [Text.bytes "json"]) none := by
    have encoded := HttpRequest.flatMap_encode (show keptInQuery slash = true by decide) (Text.bytes image)
    simp only [HttpRequest.target, List.flatMap_append, List.map_cons, List.map_nil, List.flatMap_cons,
      List.flatMap_nil, bytes_encodeQuery, encoded]
    simp
  rw [head, Request.head_target same, bytes_headText, bytes_targetText, Option.map_none, split]
  obtain ⟨named, token⟩ := method_token .get
  refine HttpRequest.parse_render ?_ named token (by simp) rfl rfl (requestHeaders_clean none)
  rw [List.mapM_append, List.mapM_append, HttpRequest.mapM_plain (by decide +kernel),
    HttpRequest.mapM_encode (by decide), HttpRequest.mapM_plain (by decide +kernel)]
  · rfl
  · intro piece member byte inside
    refine keptInQuery_segment byte ?_
    rintro rfl
    exact HttpRequest.splitOn_mem member inside

theorem create_iff (name : String) (body : List UInt8) :
    HttpRequest.parse (head (.create name body)) = some (expected (.create name body), []) ↔
      Safe (.create name body) := by
  by_cases empty : name = ""
  · subst empty
    exact iff_of_true (fixed_read (some body) none rfl (by simp) (by decide +kernel) rfl rfl) rfl
  · have same : "/" ++ apiVersion ++ createPath name =
        targetText [apiVersion, "containers", "create"] (some ("name" ++ "=" ++ name)) := by
      unfold createPath
      rewrite [if_neg empty, ← String.toList_inj]
      simp [targetText, pathText]
    obtain ⟨named, token⟩ := method_token .post
    rw [head, expected, if_neg empty, Request.head_target same, bytes_headText, bytes_targetText, Option.map_some,
      bytes_piece]
    exact HttpRequest.parse_value_iff named token (requestHeaders_clean (some body)) (by decide +kernel)
      (by decide +kernel) (Text.bytes name)

theorem stopQuery_read (seconds : Nat) :
    HttpRequest.parseQuery (Text.bytes ("t" ++ "=" ++ toString seconds)) = some (pairs [("t", toString seconds)]) ∧
      ((Text.bytes ("t" ++ "=" ++ toString seconds)).all fun byte => queryByte byte || byte == percent) = true := by
  have plain : ((Text.bytes "t").all fun byte => valueByte byte && byte != HttpRequest.equals) = true := by
    decide +kernel
  have escaped : ((Text.bytes (toString seconds)).all fun byte => valueByte byte || byte == percent) = true :=
    nat_all (by decide) seconds
  have digits : (Text.bytes (toString seconds)).all HttpRequest.letterOrDigit = true := nat_all (by decide) seconds
  rw [bytes_piece]
  refine ⟨HttpRequest.parseQuery_single (by simp) (HttpRequest.param_single plain escaped)
    (HttpRequest.param_escaped plain escaped (HttpRequest.formDecode_plain ?_ ?_)),
    HttpRequest.param_valid plain escaped⟩
  · exact HttpRequest.not_mem_of_all digits (by decide)
  · exact HttpRequest.not_mem_of_all digits (by decide)

/-- Each exchange writes one request, the one in mind, exactly if its text is safe. -/
theorem parse_iff (operation : Operation) :
    HttpRequest.parse operation.head = some (operation.expected, []) ↔ operation.Safe := by
  cases operation with
  | create name body => exact create_iff name body
  | removeByName text | remove text =>
    exact request_iff (some "force=true") rfl (by simp) (by decide +kernel) (by decide +kernel)
  | start id | kill id | inspect id => exact request_iff none rfl (by decide +kernel) rfl rfl
  | stop id seconds =>
    obtain ⟨queried, valid⟩ := stopQuery_read seconds
    have path : stopPath id seconds = "/containers/" ++ id ++ ("/stop?t=" ++ toString seconds) := String.append_assoc
    rw [head, path]
    exact request_iff (some ("t" ++ "=" ++ toString seconds)) rfl (by decide +kernel) queried valid
  | stats id => exact request_iff (some "stream=false") rfl (by decide +kernel) (by decide +kernel) (by decide +kernel)
  | attach id =>
    have shape : attachHead id = Text.bytes (headText .post
        (targetText [apiVersion, "containers", id, "attach"] (some "stream=1&stdin=1&stdout=1&stderr=1"))
        attachHeaders) :=
      congrArg Text.bytes (String.toList_inj.mp (by
        simp [headText, headersText, attachHeaders, targetText, pathText, Method.text]))
    rw [head, shape]
    exact container_iff (by decide +kernel) (by decide +kernel) (by decide +kernel) (clean_pairs (by decide +kernel))
      .post id
  | pullImage image =>
    obtain ⟨queried, valid⟩ := pullQuery_read image
    exact iff_of_true (fixed_read none (some (pullQuery image)) (pullPath_text image) (by simp) (by decide +kernel)
      queried valid) trivial
  | imagePresent image => exact iff_of_true (imagePresent_read image) trivial
  | list =>
    refine iff_of_true (fixed_read none (some "all=true") (String.toList_inj.mp ?_) (by simp)
      (by decide +kernel) (by decide +kernel) (by decide +kernel)) trivial
    simp [listPath, targetText, pathText]

end Operation

/-! ## What the trait's operations write -/

/-- The exchanges an operation can come to. A start that frees ports removes containers that
Docker itself has listed. -/
inductive Uses : RuntimeCall → Operation → Prop where
  | pull {image : String} : Uses (.pull image) (.pullImage image)
  | pullPresent {image : String} : Uses (.pull image) (.imagePresent image)
  | create {spec : ContainerSpec} {body : List UInt8} : Uses (.create spec) (.create spec.name body)
  | createPull {spec : ContainerSpec} : Uses (.create spec) (.pullImage spec.image)
  | createRemove {spec : ContainerSpec} : Uses (.create spec) (.removeByName spec.name)
  | listManaged : Uses .listManaged .list
  | start {id : String} : Uses (.start id) (.start id)
  | startInspect {id : String} : Uses (.start id) (.inspect id)
  | startList {id : String} : Uses (.start id) .list
  | startRemove {id listed : String} : Uses (.start id) (.removeByName listed)
  | stop {id : String} {timeoutSecs : Nat} : Uses (.stop id timeoutSecs) (.stop id timeoutSecs)
  | kill {id : String} : Uses (.kill id) (.kill id)
  | remove {id : String} : Uses (.remove id) (.remove id)
  | inspect {id : String} : Uses (.inspect id) (.inspect id)
  | stats {id : String} : Uses (.stats id) (.stats id)
  | attach {id : String} : Uses (.attach id) (.attach id)

/-- The request is of an exchange of the operation. -/
def Known (call : RuntimeCall) (asked : Request) : Prop :=
  ∃ operation, Uses call operation ∧ asked.head = operation.head

section All
variable {api : Decoders} {docker : DockerRuntime} {P : Request → Prop}

theorem request_all (allowed : P ⟨method, path, body⟩) : (request api method path body).All P :=
  ((all_perform _).mpr allowed).bind fun result => (all_ofExcept result).bind fun _ => all_ofExcept _

theorem expect_all (allowed : P ⟨method, path, body⟩) (ok : List Nat) : (expect api method path body ok).All P := by
  refine (request_all allowed).bind fun (status, bytes) => ?_
  dsimp only
  split
  · exact all_pure bytes
  · exact all_fail _

theorem pullImage_all (allowed : P ⟨.post, pullPath image, none⟩) : (pullImage docker image).All P := by
  refine (request_all allowed).bind fun (status, body) => ?_
  dsimp only
  split
  · exact all_fail _
  · split
    · exact all_fail _
    · exact all_pure ()

theorem removeByName_all (allowed : P ⟨.delete, removePath name, none⟩) : (removeByName api name).All P :=
  (expect_all allowed _).bind fun _ => all_pure ()

theorem createContainer_all {path image name : String} {body : List UInt8} (posts : P ⟨.post, path, some body⟩)
    (pulls : P ⟨.post, pullPath image, none⟩) (removes : P ⟨.delete, removePath name, none⟩) (pulled cleared : Bool) :
    (createContainer docker path body image name pulled cleared).All P := by
  induction pulled, cleared using createContainer.induct name with
  | case1 pulled cleared missing taken =>
    rw [createContainer]
    refine (request_all posts).bind fun (status, resp) => ?_
    dsimp only
    split
    · exact all_pure resp
    · split
      · rename_i absent
        exact (pullImage_all pulls).bind fun _ => missing status absent
      · split
        · rename_i conflict
          exact (removeByName_all removes).bind fun _ => taken status conflict
        · exact all_fail _

theorem clearPorts_all (removes : ∀ id, P ⟨.delete, removePath id, none⟩) (items : List ListItem) :
    (clearPorts api target wanted targetSid items).All P := by
  induction items with
  | nil => exact all_pure ()
  | cons item rest ih =>
    rw [clearPorts]
    split
    · exact ih
    · split
      · exact ih
      · split
        · exact ih
        · split
          · exact ((all_attempt _).mpr (removeByName_all (removes item.id))).bind fun _ => ih
          · exact ih

theorem freeConflictingPorts_all (inspects : P ⟨.get, inspectPath target, none⟩) (lists : P ⟨.get, listPath, none⟩)
    (removes : ∀ id, P ⟨.delete, removePath id, none⟩) : (freeConflictingPorts api target).All P := by
  have ports : (containerHostPorts api target).All P :=
    (expect_all inspects _).bind fun _ => (all_required _ _).bind fun _ => all_pure _
  refine ((all_attempt _).mpr ports).bind fun found => ?_
  split
  · exact all_pure ()
  · exact all_pure ()
  · refine ((all_attempt _).mpr (expect_all lists _)).bind fun listing => ?_
    split
    · exact all_pure ()
    · split
      · exact all_pure ()
      · exact clearPorts_all removes _

theorem start_all {id : String} (starts : P ⟨.post, startPath id, none⟩) (inspects : P ⟨.get, inspectPath id, none⟩)
    (lists : P ⟨.get, listPath, none⟩) (removes : ∀ id, P ⟨.delete, removePath id, none⟩) : (start api id).All P := by
  refine (request_all starts).bind fun (status, body) => ?_
  dsimp only
  split
  · exact all_pure ()
  · split
    · exact (freeConflictingPorts_all inspects lists removes).bind fun _ =>
        (expect_all starts _).bind fun _ => all_pure ()
    · exact all_fail _

end All

theorem requests_known (docker : DockerRuntime) (call : RuntimeCall) :
    ∀ asked, Requests docker call asked → Known call asked := by
  cases call with
  | attach id => exact fun _ none => none.elim
  | pull image =>
    refine all_iff_makes.mp (?_ : (pull docker image).All _)
    have looks : (imagePresent docker image).All (Known (.pull image)) := by
      refine ((all_attempt _).mpr (request_all ⟨_, .pullPresent, rfl⟩)).bind fun found => ?_
      split <;> exact all_pure _
    refine looks.bind fun present => ?_
    split
    · exact all_pure ()
    · exact pullImage_all ⟨_, .pull, rfl⟩
  | create spec =>
    refine all_iff_makes.mp (?_ : (create docker spec).All _)
    refine (all_ofExcept _).bind fun body => ?_
    refine (createContainer_all ⟨_, .create, rfl⟩ ⟨_, .createPull, rfl⟩ ⟨_, .createRemove, rfl⟩ _ _).bind fun resp => ?_
    exact all_required _ _
  | listManaged =>
    refine all_iff_makes.mp (?_ : (listManaged docker).All _)
    exact (expect_all ⟨_, .listManaged, rfl⟩ _).bind fun _ => (all_required _ _).bind fun _ => all_pure _
  | start id =>
    refine all_iff_makes.mp (?_ : (start docker.toDecoders id).All _)
    exact start_all ⟨_, .start, rfl⟩ ⟨_, .startInspect, rfl⟩ ⟨_, .startList, rfl⟩ fun listed => ⟨_, .startRemove, rfl⟩
  | stop id timeoutSecs =>
    refine all_iff_makes.mp (?_ : (stop docker id timeoutSecs).All _)
    exact (expect_all ⟨_, .stop, rfl⟩ _).bind fun _ => all_pure ()
  | kill id =>
    refine all_iff_makes.mp (?_ : (kill docker id).All _)
    exact (expect_all ⟨_, .kill, rfl⟩ _).bind fun _ => all_pure ()
  | remove id =>
    refine all_iff_makes.mp (?_ : (remove docker id).All _)
    exact (expect_all ⟨_, .remove, rfl⟩ _).bind fun _ => all_pure ()
  | inspect id =>
    refine all_iff_makes.mp (?_ : (inspect docker id).All _)
    exact (expect_all ⟨_, .inspect, rfl⟩ _).bind fun _ => all_required _ _
  | stats id =>
    refine all_iff_makes.mp (?_ : (stats docker id).All _)
    exact (expect_all ⟨_, .stats, rfl⟩ _).bind fun _ => all_required _ _

/-- Whatever an operation writes before a body is the head of one of its exchanges, and it is
read as the one request in mind exactly if the text in it is safe. -/
theorem written_head_shape (docker : DockerRuntime) (call : RuntimeCall) (head : List UInt8)
    (written : Writes docker call head) :
    ∃ operation, Uses call operation ∧ head = operation.head ∧
      (HttpRequest.parse head = some (operation.expected, []) ↔ operation.Safe) := by
  cases written with
  | request made =>
    obtain ⟨operation, uses, same⟩ := requests_known docker call _ made
    exact ⟨operation, uses, same, same ▸ operation.parse_iff⟩
  | attach id => exact ⟨.attach id, .attach, rfl, Operation.parse_iff (.attach id)⟩

/-- A runtime that decodes nothing. -/
def plainDocker : DockerRuntime where
  http := ⟨fun _ => .error ""⟩
  message _ := none
  portBindings _ := none
  containers _ := none
  dns := []
  encode _ := .error ""
  pullLine _ := none
  created _ := none
  running _ := none
  managed _ := none
  sample _ := none

theorem safe_kill_read :
    Writes plainDocker (.kill "c1") (Request.head ⟨.post, killPath "c1", none⟩) ∧
      HttpRequest.parse (Request.head ⟨.post, killPath "c1", none⟩) = some (Operation.expected (.kill "c1"), []) := by
  have written : Writes plainDocker (.kill "c1") (Request.head ⟨.post, killPath "c1", none⟩) := .request .here
  obtain ⟨operation, uses, -, shape⟩ := written_head_shape plainDocker (.kill "c1") _ written
  cases uses
  exact ⟨written, shape.mpr (by decide +kernel : (Text.bytes "c1").all segmentByte = true)⟩

/-- An id that ends the path early. -/
def endingId : String := "c2/start?"

/-- An id that ends the request early and begins another. -/
def splittingId : String := "x HTTP/1.1\r\nHost: docker\r\n\r\nDELETE /v1.43/containers/c2?force=true HTTP/1.1\r\nX:"

/-- A kill command with the first id is a start of another container, and with the second it is
followed by the removal of one. -/
theorem kill_text_reshapes :
    (∀ id dispatcher codec, (Agent.Dispatcher.handleInner dispatcher codec
        { commandId := "k", action := .kill, serverId := "s", containerId := some id }).Makes (.runtime (.kill id))) ∧
      (∀ id docker, Writes docker (.kill id) (Request.head ⟨.post, killPath id, none⟩)) ∧
      HttpRequest.parse (Request.head ⟨.post, killPath endingId, none⟩) =
        some (Operation.container .post "c2" ["start"] [("/kill", "")] (requestHeaders none), []) ∧
      (HttpRequest.parse (Request.head ⟨.post, killPath splittingId, none⟩)).bind (HttpRequest.parse ·.2) =
        some (Operation.container .delete "c2" [] [("force", "true")]
          (("X", "/kill HTTP/1.1") :: requestHeaders none), []) :=
  ⟨fun _ _ _ => .here, fun _ _ => .request .here, by decide +kernel, by decide +kernel⟩

end SkyDaemon.Runtime
