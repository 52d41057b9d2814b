import SkyDaemon.Runtime.Operations
import SkyDaemon.Runtime.PortConflict

/-! The ports of a container as three loops see them: what the create request publishes, what the
firewall opens, and what is read back from an inspection to free conflicting ports. -/
namespace SkyDaemon.Runtime
open Program Protocol

/-- `parse::<u16>`. -/
def parsePort (text : String) : Option Nat := Text.parseUnsigned 10 (2 ^ 16) text.toList

/-- The loop of `ports_from_bindings`. -/
def addPort (out : List Nat) (binding : PortBinding) : List Nat :=
  match parsePort binding.hostPort with
  | some port => if port ≠ 0 ∧ port ∉ out then out ++ [port] else out
  | none => out

def portsFromBindings (bindings : List PortBinding) : List Nat := bindings.foldl addPort []

/-! ## What the request publishes -/

/-- Grouping keeps, for each container port, its bindings in their order. -/
theorem addBinding_lookup (bindings : List PortBinding) (containerPort : String) :
    ((bindings.foldl addBinding ∅).lookup containerPort).getD [] =
      (bindings.filter (·.containerPort = containerPort)).map fun binding => ⟨binding.hostPort⟩ := by
  induction bindings using List.reverseRecOn with
  | nil => rfl
  | append_singleton bindings binding ih =>
    rw [List.foldl_append, List.filter_append, List.map_append, ← ih]
    by_cases same : containerPort = binding.containerPort
    · subst same
      simp [addBinding]
    · simp [addBinding, same, Ne.symm same]

theorem addBinding_entries {bindings : List PortBinding} {containerPort : String}
    (listed : (bindings.foldl addBinding ∅).lookup containerPort = some entries) :
    entries = (bindings.filter (·.containerPort = containerPort)).map fun binding => ⟨binding.hostPort⟩ := by
  have grouped := addBinding_lookup bindings containerPort
  rwa [listed, Option.getD_some] at grouped

theorem mem_addBinding (bindings : List PortBinding) (containerPort : String) :
    containerPort ∈ bindings.foldl addBinding ∅ ↔
      ∃ binding ∈ bindings, binding.containerPort = containerPort := by
  induction bindings using List.reverseRecOn with
  | nil => simp
  | append_singleton bindings binding ih =>
    simp only [List.foldl_append, List.foldl_cons, List.foldl_nil, addBinding, AList.mem_insert, ih,
      List.mem_append, List.mem_singleton]
    constructor
    · rintro (rfl | ⟨earlier, member, same⟩)
      · exact ⟨binding, .inr rfl, rfl⟩
      · exact ⟨earlier, .inl member, same⟩
    · rintro ⟨found, member | rfl, same⟩
      · exact .inr ⟨found, member, same⟩
      · exact .inl same.symm

/-! ## What the firewall opens -/

/-- The host ports that parse, one for each binding. -/
def parsedPorts (bindings : List PortBinding) : List Nat :=
  bindings.filterMap fun binding => parsePort binding.hostPort

theorem mem_parsedPorts : port ∈ parsedPorts bindings ↔
    ∃ binding ∈ bindings, parsePort binding.hostPort = some port := List.mem_filterMap

/-- The distinct ports other than 0 of a list, by first occurrence. -/
structure FirstPorts (parsed out : List Nat) : Prop where
  mem : ∀ port, port ∈ out ↔ port ≠ 0 ∧ port ∈ parsed
  ordered : out.Pairwise fun earlier later => parsed.idxOf earlier < parsed.idxOf later

theorem FirstPorts.nodup (first : FirstPorts parsed out) : out.Nodup := by
  apply first.ordered.imp
  rintro earlier later less rfl
  exact Nat.lt_irrefl _ less

/-- A port that was seen before keeps its place. -/
theorem FirstPorts.ordered_append (first : FirstPorts parsed out) (port : Nat) :
    out.Pairwise fun earlier later => (parsed ++ [port]).idxOf earlier < (parsed ++ [port]).idxOf later := by
  apply first.ordered.imp_of_mem
  intro earlier later inside inside' less
  rw [List.idxOf_append_of_mem ((first.mem earlier).mp inside).2,
    List.idxOf_append_of_mem ((first.mem later).mp inside').2]
  exact less

theorem FirstPorts.push (first : FirstPorts parsed out) (nonzero : port ≠ 0) (unseen : port ∉ out) :
    FirstPorts (parsed ++ [port]) (out ++ [port]) := by
  have fresh : port ∉ parsed := fun member => unseen ((first.mem port).mpr ⟨nonzero, member⟩)
  constructor
  · intro other
    simp only [List.mem_append, List.mem_singleton, first.mem]
    constructor
    · rintro (⟨positive, member⟩ | rfl)
      · exact ⟨positive, .inl member⟩
      · exact ⟨nonzero, .inr rfl⟩
    · rintro ⟨positive, member | same⟩
      · exact .inl ⟨positive, member⟩
      · exact .inr same
  · apply List.pairwise_append.mpr
    refine ⟨first.ordered_append port, List.pairwise_singleton _ _, ?_⟩
    intro earlier inside later last
    obtain rfl := List.mem_singleton.mp last
    have seen := ((first.mem earlier).mp inside).2
    rw [List.idxOf_append_of_mem seen, List.idxOf_append_of_notMem fresh]
    have := List.idxOf_lt_length_of_mem seen
    omega

theorem FirstPorts.skip (first : FirstPorts parsed out) (known : port = 0 ∨ port ∈ out) :
    FirstPorts (parsed ++ [port]) out := by
  refine ⟨?_, first.ordered_append port⟩
  intro other
  rw [first.mem, List.mem_append, List.mem_singleton]
  constructor
  · rintro ⟨positive, member⟩
    exact ⟨positive, .inl member⟩
  · rintro ⟨positive, member | rfl⟩
    · exact ⟨positive, member⟩
    · rcases known with zero | inside
      · contradiction
      · exact (first.mem other).mp inside

/-- The loop invariant at the end of the list. -/
theorem portsFromBindings_first (bindings : List PortBinding) :
    FirstPorts (parsedPorts bindings) (portsFromBindings bindings) := by
  induction bindings using List.reverseRecOn with
  | nil => exact ⟨by simp [portsFromBindings, parsedPorts], .nil⟩
  | append_singleton bindings binding ih =>
    have scanned : portsFromBindings (bindings ++ [binding]) = addPort (portsFromBindings bindings) binding := by
      rw [portsFromBindings, List.foldl_append]
      rfl
    have listed : parsedPorts (bindings ++ [binding]) =
        parsedPorts bindings ++ (parsePort binding.hostPort).toList := by
      rw [parsedPorts, List.filterMap_append, ← parsedPorts]
      cases parsed : parsePort binding.hostPort <;> simp [parsed]
    rw [scanned, listed]
    unfold addPort
    cases parsePort binding.hostPort with
    | none =>
      rw [Option.toList_none, List.append_nil]
      exact ih
    | some port =>
      dsimp only [Option.toList_some]
      split
      · rename_i new
        exact ih.push new.1 new.2
      · rename_i old
        apply ih.skip
        by_contra other
        exact old (not_or.mp other)

/-! ## What an inspection gives back -/

/-- The answer is the inspection of a container with the port bindings of the request. -/
def Echoes (api : Decoders) (request : CreateContainerRequest) (answer : Except String (List UInt8)) : Prop :=
  ∃ body bindings, response api answer = .ok (200, body) ∧ api.portBindings body = some bindings ∧
    ∀ containerPort, bindings.lookup containerPort =
      (request.hostConfig.portBindings.lookup containerPort).map fun entries =>
        some (entries.map PortBindingEntry.hostPort)

theorem mem_hostPorts {bindings : HashMap String (Option (List String))} : port ∈ hostPorts bindings ↔
    ∃ containerPort texts, bindings.lookup containerPort = some (some texts) ∧
      ∃ text ∈ texts, parsePort text = some port := by
  simp only [hostPorts, List.mem_filterMap, List.mem_flatten]
  constructor
  · rintro ⟨text, ⟨texts, ⟨⟨containerPort, entry⟩, member, rfl⟩, inside⟩, parsed⟩
    exact ⟨containerPort, texts, AList.mem_lookup_iff.mpr member, text, inside, parsed⟩
  · rintro ⟨containerPort, texts, found, text, inside, parsed⟩
    exact ⟨text, ⟨texts, ⟨_, AList.mem_lookup_iff.mp found, rfl⟩, inside⟩, parsed⟩

/-- Every binding is read back from an echo, and nothing else. -/
theorem mem_hostPorts_echo {bindings : HashMap String (Option (List String))} {spec : ContainerSpec}
    (echo : ∀ containerPort, bindings.lookup containerPort =
      ((toCreateRequest spec dns).hostConfig.portBindings.lookup containerPort).map fun entries =>
        some (entries.map PortBindingEntry.hostPort)) :
    port ∈ hostPorts bindings ↔ port ∈ parsedPorts spec.portBindings := by
  rw [mem_hostPorts, mem_parsedPorts]
  constructor
  · rintro ⟨containerPort, texts, found, text, inside, parsed⟩
    rw [echo, Option.map_eq_some_iff] at found
    obtain ⟨entries, listed, same⟩ := found
    cases same
    rw [addBinding_entries listed, List.map_map] at inside
    obtain ⟨binding, member, rfl⟩ := List.mem_map.mp inside
    exact ⟨binding, List.mem_of_mem_filter member, parsed⟩
  · rintro ⟨binding, member, parsed⟩
    have present : binding.containerPort ∈ spec.portBindings.foldl addBinding ∅ :=
      (mem_addBinding _ _).mpr ⟨binding, member, rfl⟩
    obtain ⟨entries, listed⟩ := Option.isSome_iff_exists.mp (AList.lookup_isSome.mpr present)
    refine ⟨binding.containerPort, entries.map PortBindingEntry.hostPort, ?_, binding.hostPort, ?_, parsed⟩
    · rw [echo]
      exact congrArg (Option.map _) listed
    · rw [addBinding_entries listed, List.map_map]
      exact List.mem_map.mpr ⟨binding, List.mem_filter.mpr ⟨member, by simp⟩, rfl⟩

/-- The three loops describe one set of ports. The request has a key exactly for the container
ports that occur, with their host ports in order; the firewall opens the distinct ports other
than 0 by first occurrence; and an inspection that echoes the request gives them back. -/
theorem published_ports_agree (api : Decoders) (spec : ContainerSpec) (dns : List String) :
    (∀ containerPort, containerPort ∈ (toCreateRequest spec dns).hostConfig.portBindings ↔
      ∃ binding ∈ spec.portBindings, binding.containerPort = containerPort) ∧
    (∀ containerPort entries,
      (toCreateRequest spec dns).hostConfig.portBindings.lookup containerPort = some entries →
        entries.map PortBindingEntry.hostPort =
          (spec.portBindings.filter (·.containerPort = containerPort)).map PortBinding.hostPort) ∧
    (portsFromBindings spec.portBindings).Nodup ∧ 0 ∉ portsFromBindings spec.portBindings ∧
    ((portsFromBindings spec.portBindings).Pairwise fun earlier later =>
      (parsedPorts spec.portBindings).idxOf earlier < (parsedPorts spec.portBindings).idxOf later) ∧
    (∀ port, port ∈ portsFromBindings spec.portBindings ↔
      port ≠ 0 ∧ ∃ binding ∈ spec.portBindings, parsePort binding.hostPort = some port) ∧
    ∀ oracle id, (∀ history, Echoes api (toCreateRequest spec dns) (oracle history ⟨.get, inspectPath id, none⟩)) →
      ∃ ports, ((containerHostPorts api id).transcript oracle []).2 = .ok ports ∧
        ∀ port, port ≠ 0 → (port ∈ ports ↔ port ∈ portsFromBindings spec.portBindings) := by
  have first := portsFromBindings_first spec.portBindings
  refine ⟨mem_addBinding _, ?_, first.nodup, fun member => ((first.mem 0).mp member).1 rfl, first.ordered, ?_, ?_⟩
  · intro containerPort entries listed
    rw [addBinding_entries listed, List.map_map]
    rfl
  · intro port
    rw [first.mem, mem_parsedPorts]
  · intro oracle id echoes
    obtain ⟨made, ran, answered⟩ := transcript_answered oracle (containerHostPorts api id)
    obtain ⟨answer, rfl, returns⟩ := containerHostPorts_ran ran
    obtain ⟨before, same⟩ := answered _ List.mem_cons_self
    obtain ⟨body, bindings, read, decoded, echo⟩ := echoes before
    rw [← same] at read
    refine ⟨hostPorts bindings, returns body bindings read decoded, fun port nonzero => ?_⟩
    rw [mem_hostPorts_echo echo, first.mem]
    exact (and_iff_right nonzero).symm

/-- A container port on two host ports, one left to Docker by a 0 and one by an empty text. -/
def gameSpec : ContainerSpec :=
  ⟨"sky-game", "game", [], [], "", [],
    [⟨"25565/tcp", "25565"⟩, ⟨"8080/tcp", "0"⟩, ⟨"25565/tcp", "25566"⟩, ⟨"9000/udp", ""⟩, ⟨"25565/udp", "25565"⟩],
    0, 0, ∅⟩

def echoText : String :=
  "\x7b\"HostConfig\":\x7b\"PortBindings\":\x7b\"25565/tcp\":[\x7b\"HostPort\":\"25565\"\x7d," ++
    "\x7b\"HostPort\":\"25566\"\x7d],\"25565/udp\":[\x7b\"HostPort\":\"25565\"\x7d]," ++
    "\"8080/tcp\":[\x7b\"HostPort\":\"0\"\x7d],\"9000/udp\":[\x7b\"HostPort\":\"\"\x7d]\x7d\x7d\x7d"

def echoBindings : HashMap String (Option (List String)) :=
  ((((AList.singleton "25565/tcp" (some ["25565", "25566"])).insert "25565/udp" (some ["25565"])).insert "8080/tcp"
    (some ["0"])).insert "9000/udp" (some [""]))

def echoApi : Decoders :=
  { conflictApi with portBindings := fun body => if body = Text.bytes echoText then some echoBindings else none }

/-- The ports of a container whose inspection echoes its request. -/
theorem published_port_echoed :
    portsFromBindings gameSpec.portBindings = [25565, 25566] ∧
    ∃ ports, ((containerHostPorts echoApi "c1").transcript (fun _ _ => answerText "200 OK" echoText) []).2 =
        .ok ports ∧
      ∀ port, port ≠ 0 → (port ∈ ports ↔ port ∈ portsFromBindings gameSpec.portBindings) := by
  refine ⟨by decide +kernel, ?_⟩
  apply (published_ports_agree echoApi gameSpec []).2.2.2.2.2.2
  intro history
  have read : response echoApi (answerText "200 OK" echoText) = .ok (200, Text.bytes echoText) := by
    decide +kernel
  refine ⟨Text.bytes echoText, echoBindings, read, by simp [echoApi], ?_⟩
  intro containerPort
  by_cases known : containerPort ∈ ["25565/tcp", "25565/udp", "8080/tcp", "9000/udp"]
  · simp only [List.mem_cons, List.not_mem_nil, or_false] at known
    rcases known with rfl | rfl | rfl | rfl <;> rfl
  · simp only [List.mem_cons, List.not_mem_nil, or_false, not_or] at known
    obtain ⟨tcp, udp, web, voice⟩ := known
    simp [toCreateRequest, gameSpec, echoBindings, addBinding, AList.singleton, AList.lookup, List.dlookup, udp, voice,
      Ne.symm tcp, Ne.symm udp, Ne.symm web, Ne.symm voice]

end SkyDaemon.Runtime
