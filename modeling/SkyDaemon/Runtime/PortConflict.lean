import SkyDaemon.Runtime.Docker

/-! What a start removes. A container is deleted only after Docker has refused the start
for a taken port, and only if the listing shows it to be a leftover that holds one. -/
namespace SkyDaemon.Runtime
open Program
variable (api : Decoders)

abbrev DockerHistory := List (Exchange Request fun _ => Except String (List UInt8))

/-- Docker answered the request with this status and body. -/
def Answered (history : DockerHistory) (request : Request) (status : Nat) (body : List UInt8) : Prop :=
  ∃ buf, (⟨request, .ok buf⟩ : Exchange Request _) ∈ history ∧
    parseResponse api.http buf = .ok (status, body)

/-- The status and body of an answer. -/
def response (answer : Except String (List UInt8)) : Except String (Nat × List UInt8) :=
  answer.bind (parseResponse api.http)

/-- The container is gone. -/
def Freed (answer : Except String (List UInt8)) : Prop :=
  ∃ status body, response api answer = .ok (status, body) ∧ status ∈ [204, 404]

/-- The first request was the start, and it failed because a port is taken. -/
def Conflicted (target : String) (history : DockerHistory) : Prop :=
  ∃ buf body, [⟨⟨.post, startPath target, none⟩, .ok buf⟩] <+: history ∧
    parseResponse api.http buf = .ok (500, body) ∧
    isPortConflict (extractDockerError api.message body) = true

/-- The container holds a port that is wanted, the daemon created it, and it is of the
target's own server or does not run. -/
structure Leftover (target : String) (wanted : List Nat) (items : List ListItem) (item : ListItem) :
    Prop where
  listed : item ∈ items
  other : item.id ≠ target
  publishes : ∃ port ∈ wanted, some port ∈ item.ports
  ours : ∃ sid, item.serverId = some sid ∧
    ((∃ own ∈ items, own.id = target ∧ own.serverId = some sid) ∨ item.running = false)

/-- A removal has this behind it: the target's port bindings and the listing, both as
Docker reported them, and the container's entry in the listing. -/
def Justified (target : String) (history : DockerHistory) (path : String) : Prop :=
  ∃ inspected bindings listing items item,
    Answered api history ⟨.get, inspectPath target, none⟩ 200 inspected ∧
    api.portBindings inspected = some bindings ∧
    Answered api history ⟨.get, listPath, none⟩ 200 listing ∧
    api.containers listing = some items ∧
    Leftover target (hostPorts bindings) items item ∧ path = removePath item.id

/-- Only a justified request may remove. -/
def RemovesJustified (target : String) (history : DockerHistory) (request : Request) : Prop :=
  request.method = .delete →
    Conflicted api target history ∧ Justified api target history request.path

variable {api} {history : DockerHistory} {target : String}

theorem Answered.append {asked : Request} (answered : Answered api history asked status body)
    (more : DockerHistory) : Answered api (history ++ more) asked status body := by
  obtain ⟨buf, member, parsed⟩ := answered
  exact ⟨buf, List.mem_append_left more member, parsed⟩

theorem Conflicted.append (conflicted : Conflicted api target history) (more : DockerHistory) :
    Conflicted api target (history ++ more) := by
  obtain ⟨buf, body, first, parsed, text⟩ := conflicted
  exact ⟨buf, body, first.trans (List.prefix_append history more), parsed, text⟩

theorem request_meets {calls : DockerHistory → Request → Prop} (allowed : calls history ⟨method, path, body⟩) :
    (request api method path body).Meets calls
      (fun later (status, bytes) => ∃ buf, later = history ++ [⟨⟨method, path, body⟩, .ok buf⟩] ∧
        parseResponse api.http buf = .ok (status, bytes)) history := by
  refine ⟨allowed, fun answer => ?_⟩
  cases answer with
  | error message => trivial
  | ok buf =>
    apply Meets.ofExcept
    rintro ⟨status, bytes⟩ parsed
    exact ⟨buf, rfl, parsed⟩

theorem expect_meets {calls : DockerHistory → Request → Prop} (allowed : calls history ⟨method, path, body⟩)
    (ok : List Nat) :
    (expect api method path body ok).Meets calls
      (fun later bytes => ∃ status ∈ ok, Answered api later ⟨method, path, body⟩ status bytes ∧
        ∃ exchange, later = history ++ [exchange]) history := by
  apply (request_meets allowed).bind
  rintro later ⟨status, bytes⟩ ⟨buf, rfl, parsed⟩
  dsimp only
  split
  · rename_i member
    exact ⟨status, member, ⟨buf, by simp, parsed⟩, _, rfl⟩
  · trivial

theorem request_ran {made : DockerHistory}
    (ran : (request api method path body).Ran made result) :
    ∃ answer, made = [⟨⟨method, path, body⟩, answer⟩] ∧ result = response api answer := by
  cases ran with
  | @call _ _ answer rest _ following =>
    refine ⟨answer, ?_⟩
    cases answer with
    | error message =>
      cases following
      exact ⟨rfl, rfl⟩
    | ok buf =>
      obtain ⟨rfl, rfl⟩ := following.of_ofExcept
      exact ⟨rfl, rfl⟩

theorem expect_ran {made : DockerHistory} (ran : (expect api method path body ok).Ran made result) :
    ∃ answer, made = [⟨⟨method, path, body⟩, answer⟩] ∧
      ∀ bytes, result = .ok bytes ↔ ∃ status ∈ ok, response api answer = .ok (status, bytes) := by
  rcases ran.of_bind with ⟨message, failed, rfl⟩ | ⟨⟨status, bytes⟩, first, rest, rfl, asked, following⟩
  · obtain ⟨answer, rfl, same⟩ := request_ran failed
    exact ⟨answer, rfl, by simp [← same]⟩
  · obtain ⟨answer, rfl, same⟩ := request_ran asked
    dsimp only at following
    split at following
    · rename_i member
      cases following
      refine ⟨answer, rfl, fun other => ?_⟩
      simp only [← same, Except.ok.injEq, Prod.mk.injEq]
      exact ⟨fun equal => ⟨status, member, rfl, equal⟩, fun ⟨_, _, _, equal⟩ => equal⟩
    · rename_i other
      cases following
      refine ⟨answer, rfl, fun bytes => ?_⟩
      simp only [← same, Except.ok.injEq, Prod.mk.injEq]
      exact ⟨nofun, fun ⟨_, member, equal, _⟩ => absurd (equal ▸ member) other⟩

theorem containerHostPorts_ran {made : DockerHistory} (ran : (containerHostPorts api target).Ran made result) :
    ∃ answer, made = [⟨⟨.get, inspectPath target, none⟩, answer⟩] ∧
      ∀ body bindings, response api answer = .ok (200, body) → api.portBindings body = some bindings →
        result = .ok (hostPorts bindings) := by
  rcases ran.of_bind with ⟨message, failed, rfl⟩ | ⟨bytes, first, rest, rfl, expected, following⟩
  · obtain ⟨answer, rfl, same⟩ := expect_ran failed
    refine ⟨answer, rfl, fun body bindings read decoded => ?_⟩
    cases (same body).mpr ⟨200, List.mem_cons_self, read⟩
  · obtain ⟨answer, rfl, same⟩ := expect_ran expected
    have ends : rest = [] ∧ ∀ bindings, api.portBindings bytes = some bindings →
        result = .ok (hostPorts bindings) := by
      cases decoded : api.portBindings bytes with
      | none =>
        rw [decoded] at following
        cases following
        exact ⟨rfl, nofun⟩
      | some found =>
        rw [decoded] at following
        cases following
        refine ⟨rfl, ?_⟩
        rintro _ ⟨⟩
        rfl
    obtain ⟨rfl, returns⟩ := ends
    refine ⟨answer, rfl, fun body bindings read decoded => ?_⟩
    cases (same body).mpr ⟨200, List.mem_cons_self, read⟩
    exact returns bindings decoded

theorem removeByName_ran {made : DockerHistory} (ran : (removeByName api name).Ran made result) :
    ∃ answer, made = [⟨⟨.delete, removePath name, none⟩, answer⟩] ∧ (result = .ok () ↔ Freed api answer) := by
  rcases ran.of_bind with ⟨message, failed, rfl⟩ | ⟨bytes, first, rest, rfl, expected, following⟩
  · obtain ⟨answer, rfl, same⟩ := expect_ran failed
    refine ⟨answer, rfl, nofun, ?_⟩
    rintro ⟨status, body, read, listed⟩
    cases (same body).mpr ⟨status, listed, read⟩
  · obtain ⟨answer, rfl, same⟩ := expect_ran expected
    obtain ⟨status, listed, read⟩ := (same bytes).mp rfl
    cases following
    exact ⟨answer, rfl, fun _ => ⟨status, bytes, read, listed⟩, fun _ => rfl⟩

/-- The target was inspected and asks for the ports. -/
def Inspected (api : Decoders) (target : String) (wanted : List Nat) (history : DockerHistory) : Prop :=
  ∃ body bindings, Answered api history ⟨.get, inspectPath target, none⟩ 200 body ∧
    api.portBindings body = some bindings ∧ wanted = hostPorts bindings

theorem Inspected.append (inspected : Inspected api target wanted history) (more : DockerHistory) :
    Inspected api target wanted (history ++ more) := by
  obtain ⟨body, bindings, answered, decoded⟩ := inspected
  exact ⟨body, bindings, answered.append more, decoded⟩

structure Wanting (api : Decoders) (target : String) (wanted : List Nat) (history : DockerHistory) :
    Prop where
  conflicted : Conflicted api target history
  inspected : Inspected api target wanted history

theorem Wanting.append (wanting : Wanting api target wanted history) (more : DockerHistory) :
    Wanting api target wanted (history ++ more) :=
  ⟨wanting.conflicted.append more, wanting.inspected.append more⟩

/-- What was answered before the sweep. -/
structure Sweeping (api : Decoders) (target : String) (wanted : List Nat) (items : List ListItem)
    (history : DockerHistory) : Prop extends Wanting api target wanted history where
  listed : ∃ body, Answered api history ⟨.get, listPath, none⟩ 200 body ∧
    api.containers body = some items

theorem Sweeping.append (sweeping : Sweeping api target wanted items history) (more : DockerHistory) :
    Sweeping api target wanted items (history ++ more) := by
  obtain ⟨listing, listed, items⟩ := sweeping.listed
  exact ⟨sweeping.toWanting.append more, listing, listed.append more, items⟩

theorem Sweeping.removes (sweeping : Sweeping api target wanted items history)
    (leftover : Leftover target wanted items item) :
    RemovesJustified api target history ⟨.delete, removePath item.id, none⟩ := by
  intro _
  obtain ⟨body, bindings, inspected, decoded, rfl⟩ := sweeping.inspected
  obtain ⟨listing, listed, items⟩ := sweeping.listed
  exact ⟨sweeping.conflicted, body, bindings, listing, _, item, inspected, decoded, listed, items,
    leftover, rfl⟩

theorem ListItem.publishes_iff (item : ListItem) (wanted : List Nat) :
    item.publishes wanted = true ↔ ∃ port ∈ wanted, some port ∈ item.ports := by
  simp only [ListItem.publishes, List.any_eq_true, Option.any_eq_true_iff_get, List.contains_iff_mem]
  constructor
  · rintro ⟨port, member, isSome, wanted⟩
    exact ⟨port.get isSome, wanted, by rwa [Option.some_get]⟩
  · rintro ⟨port, wanted, member⟩
    exact ⟨some port, member, rfl, wanted⟩

/-- Every removal of the sweep is of a leftover, whatever happened to the others. -/
theorem clearPorts_meets {items rest : List ListItem} (sublist : ∀ item ∈ rest, item ∈ items)
    (sweeping : Sweeping api target wanted items history) :
    (clearPorts api target wanted ((items.find? (·.id = target)).bind ListItem.serverId) rest).Meets
      (RemovesJustified api target) (fun _ _ => True) history := by
  induction rest generalizing history with
  | nil => trivial
  | cons item rest ih =>
    have others := fun other member => sublist other (List.mem_cons_of_mem item member)
    rw [clearPorts]
    split
    · exact ih others sweeping
    · rename_i other
      split
      · exact ih others sweeping
      · rename_i publishes
        split
        · exact ih others sweeping
        · rename_i sid identified
          split
          · rename_i decided
            have leftover : Leftover target wanted items item := by
              refine ⟨sublist item List.mem_cons_self, other, ?_, sid, identified, ?_⟩
              · apply (item.publishes_iff wanted).mp
                simpa using publishes
              · rcases decided with same | stopped
                · obtain ⟨own, found, ownSid⟩ := Option.bind_eq_some_iff.mp same
                  have isTarget := List.find?_some found
                  exact .inl ⟨own, List.mem_of_find?_eq_some found, by simpa using isTarget, ownSid⟩
                · exact .inr (by simpa using stopped)
            have removal : (removeByName api item.id).Meets (RemovesJustified api target)
                (fun _ _ => True) history := by
              apply (expect_meets (sweeping.removes leftover) [204, 404]).bind
              intros
              trivial
            apply (Meets.attempt (fun _ _ kept => kept.append _) sweeping removal).bind
            rintro later _ ⟨kept, -⟩
            exact ih others kept
          · exact ih others sweeping

/-- A request that removes nothing needs no justification. -/
theorem RemovesJustified.of_ne {asked : Request} (other : asked.method ≠ .delete) :
    RemovesJustified api target history asked :=
  fun isDelete => absurd isDelete other

theorem containerHostPorts_meets :
    (containerHostPorts api target).Meets (RemovesJustified api target)
      (fun later wanted => Inspected api target wanted later) history := by
  apply (expect_meets (.of_ne nofun) [200]).bind
  rintro later body ⟨status, ok, answered, -⟩
  cases List.mem_singleton.mp ok
  have decode : (required "decode inspect ports" (api.portBindings body)).Meets
      (RemovesJustified api target)
      (fun still bindings => still = later ∧ api.portBindings body = some bindings) later :=
    Meets.required fun bindings decoded => ⟨rfl, decoded⟩
  apply decode.bind
  rintro still bindings ⟨rfl, decoded⟩
  exact ⟨body, bindings, answered, decoded, rfl⟩

theorem freeConflictingPorts_meets (conflicted : Conflicted api target history) :
    (freeConflictingPorts api target).Meets (RemovesJustified api target) (fun _ _ => True) history := by
  apply (Meets.attempt (fun _ _ kept => kept.append _) conflicted containerHostPorts_meets).bind
  rintro later result ⟨conflicted, inspected⟩
  split
  · trivial
  · trivial
  · rename_i wanted _
    have wanting : Wanting api target wanted later := ⟨conflicted, inspected wanted rfl⟩
    apply (Meets.attempt (fun _ _ kept => kept.append _) wanting
      (expect_meets (.of_ne nofun) [200])).bind
    rintro last listing ⟨wanting, listed⟩
    split
    · trivial
    · rename_i body
      obtain ⟨status, ok, answered, -⟩ := listed body rfl
      cases List.mem_singleton.mp ok
      split
      · trivial
      · rename_i items decoded
        exact clearPorts_meets (fun _ member => member)
          ⟨wanting, body, answered, decoded⟩

theorem start_meets (api : Decoders) (target : String) :
    (start api target).Meets (RemovesJustified api target) (fun _ _ => True) [] := by
  apply (request_meets (.of_ne nofun)).bind
  rintro later ⟨status, body⟩ ⟨buf, rfl, parsed⟩
  dsimp only
  split
  · trivial
  · split
    · rename_i conflict
      obtain ⟨rfl, text⟩ := conflict
      apply (freeConflictingPorts_meets ⟨buf, body, List.prefix_rfl, parsed, text⟩).bind
      intro later _ _
      apply (expect_meets (.of_ne nofun) [204, 304]).bind
      intros
      trivial
    · trivial

/-- Whatever Docker answers, a start removes a container only after the first start
failed on a taken port, and only one that holds a wanted port, that the daemon created,
and that belongs to the target's own server or does not run. -/
theorem start_removes_only_leftovers (api : Decoders) (target : String)
    (oracle : DockerHistory → (asked : Request) → Except String (List UInt8))
    (before after : DockerHistory) (path : String) (body : Option (List UInt8))
    (answer : Except String (List UInt8))
    (removed : ((start api target).transcript oracle []).1 =
      before ++ ⟨⟨.delete, path, body⟩, answer⟩ :: after) :
    Conflicted api target before ∧ Justified api target before path :=
  (start_meets api target).transcript (Nat.zero_le _) removed rfl

def answerHead (status : String) : List UInt8 := Text.bytes ("HTTP/1.1 " ++ status ++ "\r\n\r\n")

def answerText (status body : String) : Except String (List UInt8) :=
  .ok (answerHead status ++ Text.bytes body)

def conflictText : String := "\x7b\"message\":\"Bind for 0.0.0.0:25565 failed: port is already allocated\"\x7d"

def bindingsText : String :=
  "\x7b\"HostConfig\":\x7b\"PortBindings\":\x7b\"25565/tcp\":[\x7b\"HostPort\":\"25565\"\x7d]\x7d\x7d\x7d"

def listingText : String :=
  "[\x7b\"Id\":\"c2\",\"Labels\":\x7b\"sky-panel.server_id\":\"s1\"\x7d,\"State\":\"created\"\x7d," ++
    "\x7b\"Id\":\"c1\",\"Labels\":\x7b\"sky-panel.server_id\":\"s1\"\x7d,\"State\":\"running\"," ++
    "\"Ports\":[\x7b\"PublicPort\":25565\x7d]\x7d]"

/-- The target `c2` and an older container `c1` of the same server that holds the port. -/
def conflictItems : List ListItem :=
  [⟨"c2", [], AList.singleton "sky-panel.server_id" "s1", "created", []⟩,
    ⟨"c1", [], AList.singleton "sky-panel.server_id" "s1", "running", [some 25565]⟩]

def conflictApi : Decoders where
  http := ⟨fun buf =>
    if answerHead "500 Internal Server Error" <+: buf then
      .ok (some ⟨(answerHead "500 Internal Server Error").length, some 500, []⟩)
    else if answerHead "200 OK" <+: buf then .ok (some ⟨(answerHead "200 OK").length, some 200, []⟩)
    else if answerHead "204 No Content" <+: buf then
      .ok (some ⟨(answerHead "204 No Content").length, some 204, []⟩)
    else .ok none⟩
  message body :=
    if body = Text.bytes conflictText then
      some "Bind for 0.0.0.0:25565 failed: port is already allocated"
    else none
  portBindings body :=
    if body = Text.bytes bindingsText then some (AList.singleton "25565/tcp" (some ["25565"])) else none
  containers body := if body = Text.bytes listingText then some conflictItems else none

/-- The first start meets the conflict, the second succeeds. -/
def conflictOracle (history : DockerHistory) (asked : Request) : Except String (List UInt8) :=
  if asked.method = .delete then answerText "204 No Content" ""
  else if asked.path = inspectPath "c2" then answerText "200 OK" bindingsText
  else if asked.path = listPath then answerText "200 OK" listingText
  else if history = [] then answerText "500 Internal Server Error" conflictText
  else answerText "204 No Content" ""

def conflictHistory : DockerHistory :=
  [⟨⟨.post, startPath "c2", none⟩, answerText "500 Internal Server Error" conflictText⟩,
    ⟨⟨.get, inspectPath "c2", none⟩, answerText "200 OK" bindingsText⟩,
    ⟨⟨.get, listPath, none⟩, answerText "200 OK" listingText⟩]

theorem start_removes_older_container :
    ((start conflictApi "c2").transcript conflictOracle []).1 = conflictHistory ++
        [⟨⟨.delete, removePath "c1", none⟩, answerText "204 No Content" ""⟩,
          ⟨⟨.post, startPath "c2", none⟩, answerText "204 No Content" ""⟩] ∧
      Conflicted conflictApi "c2" conflictHistory ∧
      Justified conflictApi "c2" conflictHistory (removePath "c1") := by
  have run : ((start conflictApi "c2").transcript conflictOracle []).1 = conflictHistory ++
      [⟨⟨.delete, removePath "c1", none⟩, answerText "204 No Content" ""⟩,
        ⟨⟨.post, startPath "c2", none⟩, answerText "204 No Content" ""⟩] := by
    decide +kernel
  exact ⟨run, start_removes_only_leftovers conflictApi "c2" conflictOracle _ _ _ none _ run⟩

end SkyDaemon.Runtime
