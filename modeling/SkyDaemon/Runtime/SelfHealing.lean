import SkyDaemon.Runtime.PortConflict

/-! What `free_conflicting_ports` leaves behind. Docker accepts a container's id or its name, and
the sweep knows the target in the listing by its id only. -/
namespace SkyDaemon.Runtime
open Program

def removal (id : String) : Request := ⟨.delete, removePath id, none⟩

theorem removal_injective : Function.Injective removal := by
  intro a b same
  have paths : "/containers/" ++ a ++ "?force=true" = "/containers/" ++ b ++ "?force=true" :=
    congrArg Request.path same
  have chars := congrArg String.toList paths
  simp only [String.toList_append, List.append_left_inj, List.append_right_inj] at chars
  exact String.toList_injective chars

/-- The container is removed in the sweep for a target of this server. -/
def ListItem.swept (target : String) (wanted : List Nat) (targetSid : Option String) (item : ListItem) : Bool :=
  item.id != target && item.publishes wanted &&
    item.serverId.any fun sid => targetSid == some sid || !item.running

/-- What was asked for in a run. -/
def asked (made : DockerHistory) : List Request := made.map Sigma.fst

section Run
variable {api : Decoders} {target : String} {made : DockerHistory}

/-- The sweep asks to remove the containers it decides on, however the removals end. -/
theorem clearPorts_ran {items : List ListItem} (ran : (clearPorts api target wanted targetSid items).Ran made result) :
    asked made = (items.filter (ListItem.swept target wanted targetSid)).map fun item => removal item.id := by
  induction items generalizing made with
  | nil =>
    cases ran
    rfl
  | cons item rest ih =>
    rw [clearPorts] at ran
    split at ran
    · rename_i isTarget
      rw [List.filter_cons_of_neg (by simp [ListItem.swept, isTarget])]
      exact ih ran
    · rename_i other
      split at ran
      · rename_i free
        rw [List.filter_cons_of_neg (by simp_all [ListItem.swept])]
        exact ih ran
      · rename_i publishes
        split at ran
        · rename_i foreign
          rw [List.filter_cons_of_neg (by simp [ListItem.swept, foreign])]
          exact ih ran
        · rename_i sid identified
          split at ran
          · rename_i decided
            rw [List.filter_cons_of_pos (by simp_all [ListItem.swept])]
            obtain ⟨outcome, first, later, rfl, removed, following⟩ := ran.of_attempt_bind
            obtain ⟨answer, rfl, -⟩ := removeByName_ran removed
            exact congrArg (removal item.id :: ·) (ih following)
          · rename_i spared
            rw [List.filter_cons_of_neg (by simp_all [ListItem.swept])]
            exact ih ran

/-- Docker answers for the target and lists the containers. -/
structure Reported (api : Decoders) (target : String) (bindings : HashMap String (Option (List String)))
    (items : List ListItem) (made : DockerHistory) : Prop where
  inspected : ∀ answer, (⟨⟨.get, inspectPath target, none⟩, answer⟩ : Exchange Request _) ∈ made →
    ∃ body, response api answer = .ok (200, body) ∧ api.portBindings body = some bindings
  listed : ∀ answer, (⟨⟨.get, listPath, none⟩, answer⟩ : Exchange Request _) ∈ made →
    ∃ body, response api answer = .ok (200, body) ∧ api.containers body = some items

theorem publishes_nil (item : ListItem) : item.publishes [] = false := by
  simp [ListItem.publishes]

/-- Exactly the containers that are decided on are asked to be removed. -/
theorem freeConflictingPorts_ran (reported : Reported api target bindings items made)
    (ran : (freeConflictingPorts api target).Ran made result) (id : String) :
    removal id ∈ asked made ↔ ∃ item ∈ items, item.id = id ∧
      item.swept target (hostPorts bindings) ((items.find? (·.id = target)).bind ListItem.serverId) = true := by
  obtain ⟨outcome, first, rest, rfl, inspecting, following⟩ := ran.of_attempt_bind
  obtain ⟨inspection, rfl, ports⟩ := containerHostPorts_ran inspecting
  obtain ⟨inspected, shown, bound⟩ := reported.inspected inspection List.mem_cons_self
  cases ports inspected bindings shown bound
  cases wanted : hostPorts bindings with
  | nil =>
    rw [wanted] at following
    cases following
    simp [asked, removal, ListItem.swept, publishes_nil]
  | cons port ports =>
    rw [wanted] at following
    obtain ⟨outcome, second, swept, rfl, listing, following⟩ := following.of_attempt_bind
    obtain ⟨answer, rfl, read⟩ := expect_ran listing
    obtain ⟨body, answered, decoded⟩ := reported.listed answer (by simp)
    cases (read body).mpr ⟨200, List.mem_cons_self, answered⟩
    dsimp only at following
    rw [decoded] at following
    have removed := clearPorts_ran following
    have whole : asked ([⟨⟨.get, inspectPath target, none⟩, inspection⟩] ++
        ([⟨⟨.get, listPath, none⟩, answer⟩] ++ swept)) =
        ⟨.get, inspectPath target, none⟩ :: ⟨.get, listPath, none⟩ :: asked swept := rfl
    rw [whole, removed]
    simp only [List.mem_cons, List.mem_map, List.mem_filter, removal_injective.eq_iff]
    constructor
    · rintro (gets | lists | ⟨item, ⟨member, decided⟩, same⟩)
      · cases gets
      · cases lists
      · exact ⟨item, member, same, decided⟩
    · rintro ⟨item, member, same, decided⟩
      exact .inr (.inr ⟨item, ⟨member, decided⟩, same⟩)

end Run

/-- Docker takes `reference` for the container: an id comes before a name, and a name may be given
without its slash. -/
def Refers (items : List ListItem) (own : ListItem) (reference : String) : Prop :=
  reference = own.id ∨
    (∃ name ∈ own.names, name = reference ∨ name = "/" ++ reference) ∧ ∀ item ∈ items, item.id ≠ reference

/-- Another container of the same server that holds a port the started one asks for. -/
structure Rival (own : ListItem) (wanted : List Nat) (item : ListItem) : Prop where
  other : item.id ≠ own.id
  ours : ∃ sid, own.serverId = some sid ∧ item.serverId = some sid
  publishes : item.publishes wanted = true

/-- No removal of the container succeeded. -/
def Remains (api : Decoders) (made : DockerHistory) (item : ListItem) : Prop :=
  ∀ answer, (⟨removal item.id, answer⟩ : Exchange Request _) ∈ made → ¬ Freed api answer

structure Healed (api : Decoders) (own : ListItem) (wanted : List Nat) (items : List ListItem)
    (made : DockerHistory) : Prop where
  freed : ∀ item ∈ items, Remains api made item → ¬ Rival own wanted item
  kept : Remains api made own

/-- Docker as the sweep needs it: the target is inspected, the containers are listed, and every
removal succeeds. -/
structure Serves (api : Decoders) (oracle : DockerHistory → Request → Except String (List UInt8))
    (reference : String) (bindings : HashMap String (Option (List String))) (items : List ListItem) : Prop where
  inspects : ∀ history, ∃ body,
    response api (oracle history ⟨.get, inspectPath reference, none⟩) = .ok (200, body) ∧
    api.portBindings body = some bindings
  lists : ∀ history, ∃ body, response api (oracle history ⟨.get, listPath, none⟩) = .ok (200, body) ∧
    api.containers body = some items
  removes : ∀ history id, Freed api (oracle history (removal id))

section Sweep
variable {api : Decoders} {oracle : DockerHistory → Request → Except String (List UInt8)} {reference : String}
  {bindings : HashMap String (Option (List String))} {items : List ListItem} {own : ListItem}

/-- With one entry for each id, a container remains exactly when the sweep spares it. -/
theorem Serves.remains_iff (serves : Serves api oracle reference bindings items)
    (distinct : (items.map ListItem.id).Nodup) {item : ListItem} (listed : item ∈ items) :
    Remains api ((freeConflictingPorts api reference).transcript oracle []).1 item ↔
      item.swept reference (hostPorts bindings)
        ((items.find? (·.id = reference)).bind ListItem.serverId) = false := by
  obtain ⟨made, whole, ran⟩ := transcript_ran oracle (freeConflictingPorts api reference) []
  have none_before : ∀ exchange ∈ ([] : DockerHistory), ∃ before, exchange.2 = oracle before exchange.1 := nofun
  have answers := transcript_answers oracle (freeConflictingPorts api reference) none_before
  rw [List.nil_append] at whole
  rw [whole] at answers ⊢
  have reported : Reported api reference bindings items made := by
    constructor
    · intro answer member
      obtain ⟨before, same⟩ := answers _ member
      dsimp only at same
      rw [same]
      exact serves.inspects before
    · intro answer member
      obtain ⟨before, same⟩ := answers _ member
      dsimp only at same
      rw [same]
      exact serves.lists before
  have removed := freeConflictingPorts_ran reported ran item.id
  rw [Bool.eq_false_iff]
  constructor
  · intro remains decided
    obtain ⟨⟨_, answer⟩, member, rfl⟩ := List.mem_map.mp (removed.mpr ⟨item, listed, rfl, decided⟩)
    obtain ⟨before, same⟩ := answers _ member
    dsimp only at same
    apply remains answer member
    rw [same]
    exact serves.removes before item.id
  · intro spared answer member
    obtain ⟨same, sameListed, sameId, decided⟩ := removed.mp (List.mem_map.mpr ⟨_, member, rfl⟩)
    rw [List.inj_on_of_nodup_map distinct sameListed listed sameId] at decided
    exact absurd decided spared

/-- The sweep knows the server of a target that is given by its id. -/
theorem find_own (distinct : (items.map ListItem.id).Nodup) (listed : own ∈ items) :
    items.find? (·.id = own.id) = some own := by
  cases found : items.find? (·.id = own.id) with
  | none => simpa using List.find?_eq_none.mp found own listed
  | some item =>
    have sameId : item.id = own.id := by simpa using List.find?_some found
    rw [List.inj_on_of_nodup_map distinct (List.mem_of_find?_eq_some found) listed sameId]

/-- The ports are free and the started container is left exactly when it was given by its id, or
everything of its server that holds a port has stopped and it holds none itself as a stopped one. -/
theorem self_healing_iff (serves : Serves api oracle reference bindings items)
    (distinct : (items.map ListItem.id).Nodup) (listed : own ∈ items) (refers : Refers items own reference) :
    Healed api own (hostPorts bindings) items ((freeConflictingPorts api reference).transcript oracle []).1 ↔
    reference = own.id ∨
      (∀ item ∈ items, Rival own (hostPorts bindings) item → item.running = false) ∧
      ¬ (own.publishes (hostPorts bindings) = true ∧ own.serverId.isSome = true ∧ own.running = false) := by
  have left {item : ListItem} (member : item ∈ items) := serves.remains_iff distinct member
  rcases refers with rfl | ⟨-, unlisted⟩
  · -- The target is found in the listing, so every rival is of its server.
    simp only [true_or, iff_true]
    constructor
    · intro item member remains rival
      have spared := (left member).mp remains
      obtain ⟨other, ⟨sid, ownSid, itemSid⟩, publishes⟩ := rival
      rw [find_own distinct listed] at spared
      simp [ListItem.swept, other, publishes, ownSid, itemSid] at spared
    · apply (left listed).mpr
      simp [ListItem.swept]
  · -- No entry has the name for its id: only what has stopped is removed, the target included.
    have unknown : items.find? (·.id = reference) = none := by
      apply List.find?_eq_none.mpr
      intro item member
      simpa using unlisted item member
    have spares {item : ListItem} (member : item ∈ items) :
        item.swept reference (hostPorts bindings) none = false ↔
          ¬ (item.publishes (hostPorts bindings) = true ∧ item.serverId.isSome = true ∧ item.running = false) := by
      cases identified : item.serverId <;>
        simp [ListItem.swept, unlisted item member, identified]
    rw [unknown, Option.bind_none] at left
    have byName : reference ≠ own.id := fun same => unlisted own listed same.symm
    simp only [byName, false_or]
    constructor
    · rintro ⟨freed, kept⟩
      refine ⟨fun item member rival => ?_, (spares listed).mp ((left listed).mp kept)⟩
      by_contra running
      have spared := (spares member).mpr fun decided => running decided.2.2
      exact freed item member ((left member).mpr spared) rival
    · rintro ⟨stopped, own'⟩
      refine ⟨fun item member remains rival => ?_, (left listed).mpr ((spares listed).mpr own')⟩
      apply (spares member).mp ((left member).mp remains)
      obtain ⟨sid, -, itemSid⟩ := rival.ours
      exact ⟨rival.publishes, by rw [itemSid]; rfl, stopped item member rival⟩

end Sweep

def gameItem : ListItem := ⟨"c2", ["/game"], AList.singleton "sky-panel.server_id" "s1", "created", []⟩

/-- An older container of the same server, running and with the port. -/
def olderItem : ListItem :=
  ⟨"c1", ["/old"], AList.singleton "sky-panel.server_id" "s1", "running", [some 25565]⟩

def gameText : String :=
  "[\x7b\"Id\":\"c2\",\"Names\":[\"/game\"],\"Labels\":\x7b\"sky-panel.server_id\":\"s1\"\x7d," ++
    "\"State\":\"created\"\x7d,\x7b\"Id\":\"c1\",\"Names\":[\"/old\"]," ++
    "\"Labels\":\x7b\"sky-panel.server_id\":\"s1\"\x7d,\"State\":\"running\"," ++
    "\"Ports\":[\x7b\"PublicPort\":25565\x7d]\x7d]"

def gameApi : Decoders :=
  { conflictApi with containers := fun body => if body = Text.bytes gameText then some [gameItem, olderItem] else none }

def gameOracle (reference : String) (_ : DockerHistory) (asked : Request) : Except String (List UInt8) :=
  if asked.method = .delete then answerText "204 No Content" ""
  else if asked.path = inspectPath reference then answerText "200 OK" bindingsText
  else answerText "200 OK" gameText

def gameBindings : HashMap String (Option (List String)) := AList.singleton "25565/tcp" (some ["25565"])

theorem gameOracle_serves {reference : String} (other : listPath ≠ inspectPath reference) :
    Serves gameApi (gameOracle reference) reference gameBindings [gameItem, olderItem] where
  inspects _ := by
    have read : response gameApi (answerText "200 OK" bindingsText) = .ok (200, Text.bytes bindingsText) := by
      decide +kernel
    exact ⟨Text.bytes bindingsText, by simp [gameOracle, read], by simp [gameApi, conflictApi, gameBindings]⟩
  lists _ := by
    have read : response gameApi (answerText "200 OK" gameText) = .ok (200, Text.bytes gameText) := by
      decide +kernel
    exact ⟨Text.bytes gameText, by simp [gameOracle, other, read], by simp [gameApi]⟩
  removes _ id := by
    have read : response gameApi (answerText "204 No Content" "") = .ok (204, []) := by decide +kernel
    exact ⟨204, [], by simp [gameOracle, removal, read], List.mem_cons_self⟩

/-- Started by its id, the container gets its port. -/
theorem self_healing_by_id : Healed gameApi gameItem (hostPorts gameBindings) [gameItem, olderItem]
    ((freeConflictingPorts gameApi "c2").transcript (gameOracle "c2") []).1 := by
  have serves := gameOracle_serves (show listPath ≠ inspectPath "c2" by decide)
  exact (self_healing_iff serves (by decide) List.mem_cons_self (.inl rfl)).mpr (.inl rfl)

/-- Started by its name, it does not: the older container is not known to be of its server. -/
theorem named_start_leaves_rival :
    Serves gameApi (gameOracle "game") "game" gameBindings [gameItem, olderItem] ∧
    Refers [gameItem, olderItem] gameItem "game" ∧
    ¬ Healed gameApi gameItem (hostPorts gameBindings) [gameItem, olderItem]
      ((freeConflictingPorts gameApi "game").transcript (gameOracle "game") []).1 := by
  have serves := gameOracle_serves (show listPath ≠ inspectPath "game" by decide)
  refine ⟨serves, .inr ⟨⟨"/game", List.mem_cons_self, .inr (by decide)⟩, by decide⟩, fun healed => ?_⟩
  have member : olderItem ∈ [gameItem, olderItem] := List.mem_cons_of_mem _ List.mem_cons_self
  have remains := (serves.remains_iff (by decide) member).mpr (by decide +kernel)
  exact healed.freed olderItem member remains ⟨by decide, ⟨"s1", by decide, by decide⟩, by decide +kernel⟩

end SkyDaemon.Runtime
