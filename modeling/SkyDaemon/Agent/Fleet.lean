import SkyDaemon.Foundation.Answers
import SkyDaemon.Foundation.Pool
import SkyDaemon.Agent.Recovery
import SkyDaemon.Runtime.Ownership

/-! The containers of a node. The daemon knows a server's container by the map of tracked
containers, and the map is lost with the process; the listing attributes a container to a server by
its label or its name. Commands interleave, calls fail with or without having taken effect,
containers vanish, and the daemon restarts at any time. -/
namespace SkyDaemon.Agent
open Protocol Program Transition

/-! ## Where a command finds its container -/

/-- The command has been given the container by its own fields, by the map or by creating it. -/
def Entrusted (cmd : CommandPayload) (history : CallHistory) (id : String) : Prop :=
  cmd.containerId = some id ∨
    (⟨.trackedGet cmd.serverId, some id⟩ : Exchange Call Call.Response) ∈ history ∨
    ∃ spec, (⟨.runtime (.create spec), .ok id⟩ : Exchange Call Call.Response) ∈ history

/-- The container that a call is about. -/
def Call.container : Call → Option String
  | .runtime (.start id) | .runtime (.stop id _) | .runtime (.kill id) | .runtime (.remove id)
  | .runtime (.inspect id) | .runtime (.stats id) | .runtime (.attach id) => some id
  | .trackedInsert _ id => some id
  | _ => none

/-- The server whose entry in the map a call is about. -/
def Call.trackedServer : Call → Option String
  | .trackedGet serverId | .trackedInsert serverId _ | .trackedRemove serverId => some serverId
  | _ => none

/-- The container of the call, if there is one, has been given to the command. -/
def TurnsToOwn (cmd : CommandPayload) (history : CallHistory) (call : Call) : Prop :=
  ∀ id, call.container = some id → Entrusted cmd history id

/-- A command turns to its own server's container and its own server's entry only. -/
structure Homebound (cmd : CommandPayload) (history : CallHistory) (call : Call) : Prop where
  container : TurnsToOwn cmd history call
  tracked : ∀ serverId, call.trackedServer = some serverId → serverId = cmd.serverId
  created : ∀ spec, call = .runtime (.create spec) → cmd.spec = some spec
  reconciles : ∀ found, call ≠ .trackedReconcile found

variable {cmd : CommandPayload} {history : CallHistory} {containerId : String}

theorem Entrusted.append (entrusted : Entrusted cmd history containerId) (more : CallHistory) :
    Entrusted cmd (history ++ more) containerId := by
  rcases entrusted with given | known | ⟨spec, created⟩
  · exact .inl given
  · exact .inr (.inl (List.mem_append_left _ known))
  · exact .inr (.inr ⟨spec, List.mem_append_left _ created⟩)

theorem Entrusted.turns {call : Call} (entrusted : Entrusted cmd history containerId)
    (about : call.container = some containerId) : TurnsToOwn cmd history call := by
  intro other same
  cases about.symm.trans same
  exact entrusted

theorem turnsToOwn_of_none {call : Call} (none : call.container = none) : TurnsToOwn cmd history call := by
  intro id about
  cases none.symm.trans about

namespace Dispatcher

/-- The container that a command resolves is one it was given. -/
theorem containerFor_turns (cmd : CommandPayload) :
    (containerFor cmd).Meets (TurnsToOwn cmd) (Entrusted cmd) [] := by
  unfold containerFor
  cases given : cmd.containerId with
  | some id => exact .inl given
  | none =>
    refine ⟨turnsToOwn_of_none rfl, fun known => ?_⟩
    cases known with
    | none => trivial
    | some id => exact .inr (.inl (List.mem_singleton_self _))

theorem create_turns (cmd : CommandPayload) : (create cmd).Meets (TurnsToOwn cmd) (fun _ _ => True) [] := by
  unfold create
  cases given : cmd.spec with
  | none => trivial
  | some spec =>
    refine ⟨turnsToOwn_of_none rfl, fun created => ?_⟩
    cases created with
    | error message => trivial
    | ok id =>
      have entrusted : Entrusted cmd [⟨.runtime (.create spec), .ok id⟩] id :=
        .inr (.inr ⟨spec, List.mem_singleton_self _⟩)
      exact ⟨entrusted.turns rfl, fun _ => trivial⟩

theorem startConsoleStream_turns (entrusted : Entrusted cmd history containerId) :
    (startConsoleStream serverId containerId).Meets (TurnsToOwn cmd) (fun _ _ => True) history := by
  refine ⟨turnsToOwn_of_none rfl, fun active => ?_⟩
  cases active with
  | true => trivial
  | false =>
    refine ⟨(entrusted.append _).turns rfl, fun attached => ?_⟩
    cases attached with
    | error message => trivial
    | ok session => exact ⟨turnsToOwn_of_none rfl, fun _ => ⟨turnsToOwn_of_none rfl, fun _ => trivial⟩⟩

theorem start_turns (cmd : CommandPayload) : (start cmd).Meets (TurnsToOwn cmd) (fun _ _ => True) [] := by
  refine (containerFor_turns cmd).bind fun history id entrusted => ⟨entrusted.turns rfl, fun started => ?_⟩
  cases started with
  | error message => trivial
  | ok _ =>
    refine ⟨(entrusted.append _).turns rfl, fun _ => ⟨turnsToOwn_of_none rfl, fun _ => ?_⟩⟩
    exact startConsoleStream_turns (((entrusted.append _).append _).append _)

theorem takeOffline_turns (cmd : CommandPayload) {halt : String → Task (Except String Unit)}
    (halts : ∀ history id, Entrusted cmd history id → (halt id).Meets (TurnsToOwn cmd) (fun _ _ => True) history) :
    (takeOffline cmd halt).Meets (TurnsToOwn cmd) (fun _ _ => True) [] := by
  refine (containerFor_turns cmd).bind fun history id entrusted => ?_
  refine (halts history id entrusted).bind fun later answer _ => ?_
  cases answer with
  | error message => trivial
  | ok _ => exact ⟨turnsToOwn_of_none rfl, fun _ => trivial⟩

theorem remove_turns (cmd : CommandPayload) : (remove cmd).Meets (TurnsToOwn cmd) (fun _ _ => True) [] := by
  refine (containerFor_turns cmd).bind fun history id entrusted => ⟨entrusted.turns rfl, fun removed => ?_⟩
  cases removed with
  | error message => trivial
  | ok _ => exact ⟨turnsToOwn_of_none rfl, fun _ => ⟨turnsToOwn_of_none rfl, fun _ => trivial⟩⟩

section Whole
variable (dispatcher : Dispatcher) (codec : Base64)

/-- The other actions are about no container. -/
theorem MayCall.container_eq_none {call : Call} (may : dispatcher.MayCall codec cmd call)
    (other : cmd.action ∉ [.create, .start, .stop, .kill, .remove]) : call.container = none := by
  cases call with
  | runtime operation => cases operation <;> simp_all [MayCall, Call.container]
  | _ => simp_all [MayCall, Call.container]

theorem handleInner_turns (cmd : CommandPayload) :
    (dispatcher.handleInner codec cmd).Meets (TurnsToOwn cmd) (fun _ _ => True) [] := by
  by_cases other : cmd.action ∉ [.create, .start, .stop, .kill, .remove]
  · refine (dispatcher.handleInner_calls codec cmd).meets_always (fun _ call may => ?_) []
    exact turnsToOwn_of_none (MayCall.container_eq_none dispatcher codec may other)
  · unfold handleInner
    cases action : cmd.action with
    | create => exact (create_turns cmd).bind fun _ _ _ => trivial
    | start => exact (start_turns cmd).bind fun _ _ _ => trivial
    | stop | kill =>
      refine (takeOffline_turns cmd fun _ _ entrusted => ?_).bind fun _ _ _ => trivial
      exact ⟨entrusted.turns rfl, fun _ => trivial⟩
    | remove => exact (remove_turns cmd).bind fun _ _ _ => trivial
    | _ => simp [action] at other

theorem handle_homebound (cmd : CommandPayload) :
    (dispatcher.handle codec cmd).Meets (Homebound cmd) (fun _ _ => True) [] := by
  have nothing : ∀ (_ : CallHistory) (_ : Exchange Call Call.Response), True → True := fun _ _ => id
  have turns : (dispatcher.handle codec cmd).Meets (TurnsToOwn cmd) (fun _ _ => True) [] :=
    (Meets.attempt nothing trivial (dispatcher.handleInner_turns codec cmd)).bind fun _ _ _ => trivial
  refine (turns.and_all (dispatcher.handle_calls codec cmd)).mono ?_ fun _ _ _ => trivial
  rintro later call ⟨container, may⟩
  refine ⟨container, fun serverId about => ?_, ?_, ?_⟩
  · unfold Call.trackedServer at about
    split at about <;> cases about <;> exact may.1
  · rintro spec rfl
    exact may.2
  · rintro found rfl
    exact may

end Whole

end Dispatcher

/-! ## The engine and the map -/

/-- What the engine lists of a container: its names, with a slash in front, and its labels. -/
structure Identity where
  names : List String
  labels : HashMap String String

namespace Identity

/-- A new container, which the engine names itself if the spec does not. -/
def ofSpec (spec : ContainerSpec) (generated : String) : Identity where
  names := ["/" ++ if spec.name = "" then generated else spec.name]
  labels := spec.labels

/-- The server that the listing attributes the container to. -/
def server (identity : Identity) : Option String := Runtime.serverIdFrom identity.names identity.labels

end Identity

/-- The containers that exist, the ids that there have ever been, and the map. -/
structure Fleet where
  containers : HashMap String Identity
  used : List String
  tracked : HashMap String String

/-- What the surroundings decide in a step: the answer of a call that is theirs, the containers
that vanish before it, the id and name of a new container, and whether a call that fails has
taken effect all the same. -/
structure FleetChoice where
  answer : (call : Call) → call.Response
  gone : List String
  fresh : String
  generated : String
  took : Bool

namespace Fleet

/-- A host with containers of its own, before the daemon's first start. -/
def host (containers : HashMap String Identity) : Fleet := ⟨containers, containers.entries.map (·.1), ∅⟩

/-- The containers that `list_managed` keeps. -/
def managed (fleet : Fleet) : List ManagedContainer :=
  fleet.containers.entries.filterMap fun entry =>
    Runtime.ManagedItem.container ⟨entry.1, entry.2.names, entry.2.labels⟩

def without (fleet : Fleet) (gone : List String) : Fleet :=
  { fleet with containers := gone.foldl (fun containers id => containers.erase id) fleet.containers }

/-- A new container gets a new id, and the listing comes in any order. -/
def reply (fleet : Fleet) (choice : FleetChoice) : (call : Call) → call.Response
  | .runtime (.create spec) => (choice.answer (.runtime (.create spec))).map fun _ => choice.fresh
  | .runtime .listManaged =>
      (choice.answer (.runtime .listManaged)).map fun listed =>
        if listed.Perm fleet.managed then listed else fleet.managed
  | .trackedGet serverId => fleet.tracked.lookup serverId
  | .trackedSnapshot => fleet.tracked.entries.map fun entry => (entry.1, entry.2)
  | other => choice.answer other

def effect (fleet : Fleet) (choice : FleetChoice) : (call : Call) → call.Response → Fleet
  | .runtime (.create spec), answer =>
      if answer.isOk || choice.took then
        { fleet with
          containers := fleet.containers.insert choice.fresh (.ofSpec spec choice.generated)
          used := choice.fresh :: fleet.used }
      else fleet
  | .runtime (.remove id), answer =>
      if answer.isOk || choice.took then { fleet with containers := fleet.containers.erase id } else fleet
  | .trackedInsert serverId containerId, _ => { fleet with tracked := fleet.tracked.insert serverId containerId }
  | .trackedRemove serverId, _ => { fleet with tracked := fleet.tracked.erase serverId }
  | .trackedReconcile found, _ => { fleet with tracked := found.foldl World.orInsert fleet.tracked }
  | _, _ => fleet

/-- Creating and starting may make the runtime itself remove a container, the old one of the same name
or one that holds a wanted port; it is one of those that vanish. -/
def react : Reaction Fleet FleetChoice Call Call.Response := fun fleet choice call =>
  ((fleet.without choice.gone).reply choice call,
    (fleet.without choice.gone).effect choice call ((fleet.without choice.gone).reply choice call))

variable {fleet after : Fleet} {id serverId : String}

theorem lookup_without (gone : List String) :
    (fleet.without gone).containers.lookup id = if id ∈ gone then none else fleet.containers.lookup id := by
  unfold without
  generalize fleet.containers = containers
  induction gone generalizing containers with
  | nil => simp
  | cons first gone ih =>
    rw [List.foldl_cons, ih, HashMap.lookup_erase_eq]
    by_cases same : id = first
    · simp [same]
    · simp [same]

theorem mem_managed (container : ManagedContainer) : container ∈ fleet.managed ↔
    ∃ identity, fleet.containers.lookup container.containerId = some identity ∧
      identity.server = some container.serverId := by
  obtain ⟨serverId, id⟩ := container
  simp only [managed, List.mem_filterMap, Runtime.ManagedItem.container_eq, Option.map_eq_some_iff]
  constructor
  · rintro ⟨⟨id', identity⟩, member, serverId', owner, same⟩
    cases same
    exact ⟨identity, AList.mem_lookup_iff.mpr member, owner⟩
  · rintro ⟨identity, found, owner⟩
    exact ⟨⟨id, identity⟩, AList.mem_lookup_iff.mp found, serverId, owner, rfl⟩

/-- There has been such a container, and if it still exists it is the server's. -/
structure Belongs (fleet : Fleet) (id serverId : String) : Prop where
  known : id ∈ fleet.used
  owned : ∀ identity, fleet.containers.lookup id = some identity → identity.server = some serverId

/-- Containers vanish, and the new ones have new ids. -/
structure Evolves (fleet after : Fleet) : Prop where
  used : fleet.used ⊆ after.used
  containers : ∀ id identity, after.containers.lookup id = some identity →
    fleet.containers.lookup id = some identity ∨ id ∉ fleet.used ∧ id ∈ after.used

theorem Evolves.refl (fleet : Fleet) : fleet.Evolves fleet := ⟨List.Subset.refl _, fun _ _ found => .inl found⟩

theorem Evolves.trans {last : Fleet} (first : fleet.Evolves after) (second : after.Evolves last) :
    fleet.Evolves last where
  used := List.Subset.trans first.used second.used
  containers id identity found := by
    rcases second.containers id identity found with old | ⟨new, known⟩
    · rcases first.containers id identity old with older | ⟨new, known⟩
      · exact .inl older
      · exact .inr ⟨new, second.used known⟩
    · exact .inr ⟨fun old => new (first.used old), known⟩

theorem Belongs.evolves (belongs : fleet.Belongs id serverId) (evolves : fleet.Evolves after) :
    after.Belongs id serverId := by
  refine ⟨evolves.used belongs.known, fun identity found => ?_⟩
  rcases evolves.containers id identity found with old | ⟨new, -⟩
  · exact belongs.owned identity old
  · exact absurd belongs.known new

theorem evolves_without (fleet : Fleet) (gone : List String) : fleet.Evolves (fleet.without gone) where
  used := List.Subset.refl _
  containers id identity found := by
    rw [lookup_without] at found
    split at found
    · contradiction
    · exact .inl found

theorem Evolves.retracked (evolves : fleet.Evolves after) (tracked : HashMap String String) :
    fleet.Evolves { after with tracked := tracked } :=
  ⟨evolves.used, evolves.containers⟩

theorem evolves_effect {choice : FleetChoice} (new : choice.fresh ∉ fleet.used) (call : Call)
    (answer : call.Response) : fleet.Evolves (fleet.effect choice call answer) := by
  unfold effect
  split
  · split
    · refine ⟨List.subset_cons_self _ _, fun id identity found => ?_⟩
      rw [HashMap.lookup_insert_eq] at found
      split at found
      · rename_i same
        exact .inr ⟨same ▸ new, same ▸ List.mem_cons_self⟩
      · exact .inl found
    · exact .refl fleet
  · split
    · refine ⟨List.Subset.refl _, fun id identity found => ?_⟩
      rw [HashMap.lookup_erase_eq] at found
      split at found
      · contradiction
      · exact .inl found
    · exact .refl fleet
  all_goals exact ⟨List.Subset.refl _, fun _ _ found => .inl found⟩

theorem evolves_react {choice : FleetChoice} (new : choice.fresh ∉ fleet.used) (call : Call) :
    fleet.Evolves (react fleet choice call).2 := by
  have still : choice.fresh ∉ (fleet.without choice.gone).used := new
  exact (evolves_without fleet choice.gone).trans (evolves_effect still call _)

/-- Every id is known, and the map leads every server to its own container, if to any. -/
structure Settled (fleet : Fleet) : Prop where
  known : ∀ id identity, fleet.containers.lookup id = some identity → id ∈ fleet.used
  tracked : ∀ serverId id, fleet.tracked.lookup serverId = some id → fleet.Belongs id serverId

theorem settled_host (containers : HashMap String Identity) : (host containers).Settled where
  known id identity found := List.mem_map_of_mem (AList.mem_lookup_iff.mp found)
  tracked serverId id held := by simp [host] at held

theorem Evolves.known (evolves : fleet.Evolves after)
    (known : ∀ id identity, fleet.containers.lookup id = some identity → id ∈ fleet.used)
    (found : after.containers.lookup id = some identity) : id ∈ after.used := by
  rcases evolves.containers id identity found with old | ⟨-, new⟩
  · exact evolves.used (known id identity old)
  · exact new

/-- Only three calls change the map. -/
theorem tracked_effect (fleet : Fleet) (choice : FleetChoice) (call : Call) (answer : call.Response) :
    (fleet.effect choice call answer).tracked =
      match call with
      | .trackedInsert serverId containerId => fleet.tracked.insert serverId containerId
      | .trackedRemove serverId => fleet.tracked.erase serverId
      | .trackedReconcile found => found.foldl World.orInsert fleet.tracked
      | _ => fleet.tracked := by
  cases call with
  | runtime operation =>
    cases operation with
    | create spec =>
      rw [effect]
      split <;> rfl
    | remove container =>
      rw [effect]
      split <;> rfl
    | _ => rfl
  | _ => rfl

/-- What the map holds after a command's call was there or has just been put there. -/
theorem tracked_react (fleet : Fleet) (choice : FleetChoice) {call : Call}
    (reconciles : ∀ found, call ≠ .trackedReconcile found)
    (found : (react fleet choice call).2.tracked.lookup serverId = some id) :
    fleet.tracked.lookup serverId = some id ∨ call = .trackedInsert serverId id := by
  rw [react, tracked_effect] at found
  split at found
  · rw [HashMap.lookup_insert_eq] at found
    split at found
    · rename_i same
      cases found
      exact .inr (by rw [same])
    · exact .inl found
  · rw [HashMap.lookup_erase_eq] at found
    split at found
    · contradiction
    · exact .inl found
  · exact absurd rfl (reconciles _)
  · exact .inl found

theorem create_react (fleet : Fleet) {choice : FleetChoice} {spec : ContainerSpec}
    (answered : (react fleet choice (.runtime (.create spec))).1 = .ok id) :
    id = choice.fresh ∧ (react fleet choice (.runtime (.create spec))).2 =
      { fleet.without choice.gone with
        containers := (fleet.without choice.gone).containers.insert choice.fresh (.ofSpec spec choice.generated)
        used := choice.fresh :: fleet.used } := by
  change (choice.answer (.runtime (.create spec))).map (fun _ => choice.fresh) = _ at answered
  cases given : choice.answer (.runtime (.create spec)) with
  | error message =>
    rw [given] at answered
    cases answered
  | ok any =>
    rw [given] at answered
    cases answered
    refine ⟨rfl, ?_⟩
    have replied : (fleet.without choice.gone).reply choice (.runtime (.create spec)) = .ok choice.fresh :=
      congrArg (Except.map fun _ => choice.fresh) given
    rw [react, replied]
    rfl

end Fleet

/-! ## Commands and restarts -/

abbrev FleetPool := Pool Fleet CommandPayload Call Call.Response AckPayload

inductive FleetEvent where
  | command (event : Pool.Event CommandPayload FleetChoice)
  /-- The process ends with all its tasks, and a new one rebuilds the map before it takes commands. -/
  | restart (choices : Nat → FleetChoice)

/-- A command as the panel sends it: it names no container, since no ack tells of one, and what it
creates is attributed to its server, by a label or by a name. -/
def FromPanel (cmd : CommandPayload) : Prop :=
  cmd.containerId = none ∧ ∀ spec, cmd.spec = some spec →
    ∀ generated, (Identity.ofSpec spec generated).server = some cmd.serverId

/-- The engine gives no id twice. -/
def FleetPool.New (pool : FleetPool) : Pool.Event CommandPayload FleetChoice → Prop
  | .receive _ => True
  | .advance _ choice => choice.fresh ∉ pool.world.used

def FleetPool.restart (pool : FleetPool) (choices : Nat → FleetChoice) : FleetPool where
  world := (Dispatcher.reconcile.execute Fleet.react (.start { pool.world with tracked := ∅ } choices)).2.world
  threads := []
  log := pool.log

def FleetPool.Steps (dispatcher : Dispatcher) (codec : Base64) (pool : FleetPool) (event : FleetEvent)
    (after : FleetPool) : Prop :=
  match event with
  | .command event => Pool.Steps Fleet.react (dispatcher.handle codec) FromPanel pool event after ∧ pool.New event
  | .restart choices => after = pool.restart choices

variable {dispatcher : Dispatcher} {codec : Base64}

/-- Every container that a command has been given is its server's, and it turns to no other. -/
structure AtHome (pool : FleetPool) : Prop where
  settled : pool.world.Settled
  panel : ∀ thread ∈ pool.threads, FromPanel thread.origin
  obeys : ∀ thread ∈ pool.threads, thread.Obeys Homebound fun _ _ _ => True
  entrusted : ∀ thread ∈ pool.threads, ∀ id, Entrusted thread.origin thread.history id →
    pool.world.Belongs id thread.origin.serverId
  logged : ∀ entry ∈ pool.log, ∀ id, entry.exchange.1.container = some id → ∀ identity,
    entry.before.containers.lookup id = some identity → identity.server = some entry.origin.serverId

theorem atHome_start (containers : HashMap String Identity) : AtHome (Pool.start (.host containers)) where
  settled := Fleet.settled_host containers
  panel _ member := by simp [Pool.start] at member
  obeys _ member := by simp [Pool.start] at member
  entrusted _ member := by simp [Pool.start] at member
  logged _ member := by simp [Pool.start] at member

theorem AtHome.spawn {pool : FleetPool} (home : AtHome pool) {cmd : CommandPayload} (panel : FromPanel cmd) :
    AtHome (pool.spawn (dispatcher.handle codec) cmd) where
  settled := home.settled
  panel := Pool.forall_spawn home.panel panel
  obeys := Pool.forall_spawn home.obeys (dispatcher.handle_homebound codec cmd)
  entrusted := by
    refine Pool.forall_spawn home.entrusted fun id entrusted => ?_
    rcases entrusted with given | known | ⟨spec, created⟩
    · cases panel.1.symm.trans given
    · contradiction
    · contradiction
  logged := home.logged

/-- What a command is newly given is its server's. -/
theorem Fleet.Belongs.given {fleet : Fleet} {choice : FleetChoice} {call : Call} {cmd : CommandPayload}
    {history : CallHistory} (new : choice.fresh ∉ fleet.used) (settled : fleet.Settled) (panel : FromPanel cmd)
    (homebound : Homebound cmd history call) {id : String}
    (old : Entrusted cmd history id → fleet.Belongs id cmd.serverId)
    (entrusted : Entrusted cmd (history ++ [⟨call, (Fleet.react fleet choice call).1⟩]) id) :
    (Fleet.react fleet choice call).2.Belongs id cmd.serverId := by
  have evolves := Fleet.evolves_react new call
  rcases entrusted with given | known | ⟨spec, created⟩
  · exact (old (.inl given)).evolves evolves
  · rcases List.mem_append.mp known with before | now
    · exact (old (.inr (.inl before))).evolves evolves
    · obtain ⟨rfl, answered⟩ := Sigma.mk.inj_iff.mp (List.mem_singleton.mp now)
      exact (settled.tracked _ _ (eq_of_heq answered).symm).evolves evolves
  · rcases List.mem_append.mp created with before | now
    · exact (old (.inr (.inr ⟨spec, before⟩))).evolves evolves
    · obtain ⟨rfl, answered⟩ := Sigma.mk.inj_iff.mp (List.mem_singleton.mp now)
      obtain ⟨rfl, after⟩ := Fleet.create_react fleet (eq_of_heq answered).symm
      rw [after]
      refine ⟨List.mem_cons_self, fun identity found => ?_⟩
      rw [HashMap.lookup_insert_eq, if_pos rfl] at found
      cases found
      exact panel.2 spec (homebound.created spec rfl) choice.generated

theorem AtHome.resume {pool : FleetPool} (home : AtHome pool) {index : Nat} {choice : FleetChoice}
    (new : choice.fresh ∉ pool.world.used) {thread : CommandThread} {call : Call}
    {next : call.Response → Task AckPayload} (found : pool.threads[index]? = some thread)
    (waiting : thread.rest = .call call next) :
    AtHome (pool.resume Fleet.react index choice thread call next) := by
  have present := List.mem_of_getElem? found
  have homebound := (home.obeys thread present).next waiting
  have evolves := Fleet.evolves_react new call
  constructor
  · refine ⟨fun _ _ exist => evolves.known home.settled.known exist, fun serverId id held => ?_⟩
    rcases Fleet.tracked_react pool.world choice homebound.reconciles held with old | rfl
    · exact (home.settled.tracked serverId id old).evolves evolves
    · cases homebound.tracked serverId rfl
      exact (home.entrusted thread present id (homebound.container id rfl)).evolves evolves
  · exact Pool.forall_resume home.panel (home.panel thread present)
  · exact Pool.forall_resume home.obeys ((home.obeys thread present).resume waiting _)
  · refine Pool.forall_resume (fun other old id entrusted => ?_) fun id entrusted => ?_
    · exact (home.entrusted other old id entrusted).evolves evolves
    · have old := home.entrusted thread present id
      exact .given new home.settled (home.panel thread present) homebound old entrusted
  · intro entry member id about identity exist
    rcases List.mem_append.mp member with old | last
    · exact home.logged entry old id about identity exist
    · cases List.mem_singleton.mp last
      exact (home.entrusted thread present id (homebound.container id about)).owned identity exist

/-! ## Restarts -/

/-- The first call of a new process. -/
theorem Fleet.listing_answer (fleet : Fleet) (choices : Nat → FleetChoice) :
    (Course.start fleet choices).answer Fleet.react (.runtime .listManaged) =
      ((choices 0).answer (.runtime .listManaged)).map fun listed =>
        if listed.Perm (fleet.without (choices 0).gone).managed then listed
        else (fleet.without (choices 0).gone).managed := rfl

/-- After a listing that succeeded, the map holds the first listed container of every server. -/
theorem restart_listed {pool : FleetPool} {choices : Nat → FleetChoice} {listed : List ManagedContainer}
    (lists : (choices 0).answer (.runtime .listManaged) = .ok listed) :
    ∃ found : List ManagedContainer, found.Perm (pool.world.without (choices 0).gone).managed ∧
      (pool.restart choices).world =
        { (pool.world.without (choices 0).gone).without (choices 1).gone with
          tracked := found.foldl World.orInsert ∅ } := by
  refine ⟨if listed.Perm (pool.world.without (choices 0).gone).managed then listed
    else (pool.world.without (choices 0).gone).managed, ?_, ?_⟩
  · split
    · assumption
    · exact .refl _
  · rw [FleetPool.restart, Dispatcher.reconcile, runtime, execute_perform_bind, Fleet.listing_answer, lists]
    rfl

/-- A listing that failed leaves the map empty. -/
theorem restart_unlisted {pool : FleetPool} {choices : Nat → FleetChoice} {message : String}
    (fails : (choices 0).answer (.runtime .listManaged) = .error message) :
    (pool.restart choices).world = { pool.world.without (choices 0).gone with tracked := ∅ } := by
  rw [FleetPool.restart, Dispatcher.reconcile, runtime, execute_perform_bind, Fleet.listing_answer, fails]
  rfl

/-- The rebuilt map leads to containers of the server only, and to one whenever there is one. -/
theorem restart_tracked (pool : FleetPool) {choices : Nat → FleetChoice} {listed : List ManagedContainer}
    (lists : (choices 0).answer (.runtime .listManaged) = .ok listed) (serverId : String) :
    (∀ id, (pool.restart choices).world.tracked.lookup serverId = some id →
      ∃ identity, (pool.world.without (choices 0).gone).containers.lookup id = some identity ∧
        identity.server = some serverId) ∧
    (∀ id identity, (pool.world.without (choices 0).gone).containers.lookup id = some identity →
      identity.server = some serverId → ((pool.restart choices).world.tracked.lookup serverId).isSome) := by
  obtain ⟨found, same, world⟩ : ∃ found : List ManagedContainer, _ ∧ (pool.restart choices).world = _ :=
    restart_listed lists
  have tracked : (pool.restart choices).world.tracked.lookup serverId =
      (found.find? (·.serverId == serverId)).map ManagedContainer.containerId := by
    rw [world]
    exact (lookup_foldl_orInsert found ∅ serverId).trans (by simp)
  rw [tracked]
  constructor
  · intro id held
    obtain ⟨container, first, rfl⟩ := Option.map_eq_some_iff.mp held
    have own : container.serverId = serverId := by simpa using List.find?_some first
    have member := same.mem_iff.mp (List.mem_of_find?_eq_some first)
    exact own ▸ (Fleet.mem_managed container).mp member
  · intro id identity exist owner
    have member : ⟨serverId, id⟩ ∈ found := same.mem_iff.mpr ((Fleet.mem_managed _).mpr ⟨identity, exist, owner⟩)
    rw [Option.isSome_map, List.find?_isSome]
    exact ⟨_, member, by simp⟩

theorem AtHome.restart {pool : FleetPool} (home : AtHome pool) (choices : Nat → FleetChoice) :
    AtHome (pool.restart choices) where
  settled := by
    have gone := Fleet.evolves_without pool.world (choices 0).gone
    cases lists : (choices 0).answer (.runtime .listManaged) with
    | error message =>
      rw [restart_unlisted lists]
      exact ⟨fun _ _ exist => gone.known home.settled.known exist, fun _ _ held => by simp at held⟩
    | ok listed =>
      have tracked (serverId : String) := (restart_tracked pool lists serverId).1
      obtain ⟨found, -, world⟩ : ∃ found : List ManagedContainer, _ ∧ (pool.restart choices).world = _ :=
        restart_listed lists
      have later : (pool.world.without (choices 0).gone).Evolves (pool.restart choices).world := by
        rw [world]
        exact (Fleet.evolves_without _ _).retracked _
      refine ⟨fun _ _ exist => (gone.trans later).known home.settled.known exist, fun serverId id held => ?_⟩
      obtain ⟨identity, exist, owner⟩ := tracked serverId id held
      have belongs : (pool.world.without (choices 0).gone).Belongs id serverId := by
        refine ⟨gone.known home.settled.known exist, fun other exist' => ?_⟩
        cases exist.symm.trans exist'
        exact owner
      exact belongs.evolves later
  panel _ member := by simp [FleetPool.restart] at member
  obeys _ member := by simp [FleetPool.restart] at member
  entrusted _ member := by simp [FleetPool.restart] at member
  logged := home.logged

theorem atHome_run {containers : HashMap String Identity} {events : List FleetEvent} {pool : FleetPool}
    (run : Run (FleetPool.Steps dispatcher codec) (Pool.start (.host containers)) events pool) : AtHome pool := by
  refine run.invariant (fun {pool event after} home stepped => ?_) (atHome_start containers)
  cases event with
  | restart choices =>
    cases stepped
    exact home.restart choices
  | command event =>
    obtain ⟨stepped, new⟩ := stepped
    cases event with
    | receive cmd =>
      cases stepped.1
      exact home.spawn (stepped.2 cmd rfl)
    | advance index choice =>
      obtain ⟨thread, call, next, found, waiting, rfl⟩ := Pool.step_advance stepped.1
      exact home.resume new found waiting

/-- Through any interleaving, fault and restart, a command hands the runtime and tracks only
containers that the listing attributes to its own server. -/
theorem commands_reach_own_containers {containers : HashMap String Identity} {events : List FleetEvent}
    {pool : FleetPool} (run : Run (FleetPool.Steps dispatcher codec) (Pool.start (.host containers)) events pool) :
    ∀ entry ∈ pool.log, ∀ id, entry.exchange.1.container = some id → ∀ identity,
      entry.before.containers.lookup id = some identity → identity.server = some entry.origin.serverId :=
  (atHome_run run).logged

/-- A restart at any time loses no server: with a listing that succeeds, the rebuilt map leads each
server to a container of its own exactly if one exists, and to the one it was tracked to before
if that is the only one. -/
theorem restart_recovers {containers : HashMap String Identity} {events : List FleetEvent} {pool : FleetPool}
    (run : Run (FleetPool.Steps dispatcher codec) (Pool.start (.host containers)) events pool)
    {choices : Nat → FleetChoice} {listed : List ManagedContainer}
    (lists : (choices 0).answer (.runtime .listManaged) = .ok listed) (serverId : String) :
    (∀ id, (pool.restart choices).world.tracked.lookup serverId = some id →
      ∃ identity, (pool.world.without (choices 0).gone).containers.lookup id = some identity ∧
        identity.server = some serverId) ∧
    (((pool.restart choices).world.tracked.lookup serverId).isSome ↔
      ∃ id identity, (pool.world.without (choices 0).gone).containers.lookup id = some identity ∧
        identity.server = some serverId) ∧
    ∀ id, pool.world.tracked.lookup serverId = some id →
      ((pool.world.without (choices 0).gone).containers.lookup id).isSome →
      (∀ other identity, (pool.world.without (choices 0).gone).containers.lookup other = some identity →
        identity.server = some serverId → other = id) →
      (pool.restart choices).world.tracked.lookup serverId = some id := by
  have home := atHome_run run
  obtain ⟨own, kept⟩ := restart_tracked pool lists serverId
  refine ⟨own, ⟨fun held => ?_, ?_⟩, fun id tracked exist only => ?_⟩
  · obtain ⟨id, held⟩ := Option.isSome_iff_exists.mp held
    obtain ⟨identity, exist, owner⟩ := own id held
    exact ⟨id, identity, exist, owner⟩
  · rintro ⟨id, identity, exist, owner⟩
    exact kept id identity exist owner
  · obtain ⟨identity, exist⟩ := Option.isSome_iff_exists.mp exist
    have belongs := (home.settled.tracked serverId id tracked).evolves
      (Fleet.evolves_without pool.world (choices 0).gone)
    obtain ⟨other, held⟩ := Option.isSome_iff_exists.mp (kept id identity exist (belongs.owned identity exist))
    obtain ⟨identity', exist', owner'⟩ := own other held
    rw [held, only other identity' exist' owner']

/-! ## One server, created, recovered and started -/

def shopServer : String := "3f2b8c1d-9e47-4a60-b5d3-7c1e0f9a8b26"
def gameServer : String := "01234567-89ab-cdef-0123-456789abcdef"

def shopId : String := "9c7f3a51d20e4b6889a1c35e7f02d4b6a8c0e19375bd24f6e8097a1b3c5d7f90"
def gameId : String := "1b5e7d90c3a24f68b1d0e2f4a6c89075e3d1b2f4a6c8e09172635445f6a7b8c9"

/-- A host with a game server that has lost its label, and a container of somebody else. -/
def mixedHost : HashMap String Identity :=
  ((∅ : HashMap String Identity).insert gameId ⟨["/sky-01234567-89ab-cdef-0123-456789abcdef"], ∅⟩).insert
    "e4c2a0886f5d3b1978c6a4e2d0bf9d7b5a3918f7e6d5c4b3a29180f7e6d5c4b3" ⟨["/sky-cache"], ∅⟩

/-- Every call succeeds and nothing vanishes; a new container gets this id. -/
def smooth (fresh : String) : FleetChoice := ⟨willing.answer, [], fresh, "eager_morse", false⟩

/-- An id that no container gets in these runs. -/
def spareId : String := "0d6b48f2a19c7e5330f8e6d4c2b0a19876543210fedcba9876543210fedcba98"

def shopSpec : ContainerSpec :=
  ⟨"sky-3f2b8c1d-9e47-4a60-b5d3-7c1e0f9a8b26", "itzg/minecraft-server", [], [], "", [], [], 0, 0,
    (∅ : HashMap String String).insert "sky-panel.server_id" shopServer⟩

def createShop : CommandPayload := { lifecycleCommand .create shopServer none with spec := some shopSpec }

theorem createShop_fromPanel : FromPanel createShop := by
  refine ⟨rfl, ?_⟩
  rintro _ ⟨⟩ generated
  exact (Runtime.serverIdFrom_eq_some_iff _ _ _).mpr (.inl ⟨AList.lookup_insert _, by decide⟩)

/-- The daemon creates the container and tracks it. -/
def creation : List FleetEvent :=
  [.command (.receive createShop), .command (.advance 0 (smooth shopId)), .command (.advance 0 (smooth spareId))]

/-- The listing of the new process succeeds. -/
def readily : Nat → FleetChoice := fun _ => smooth spareId

abbrev SampleSteps : FleetPool → FleetEvent → FleetPool → Prop :=
  FleetPool.Steps Dispatcher.defaultDispatcher Dispatcher.unusedCodec

theorem creation_run : ∃ pool, Run SampleSteps (Pool.start (.host mixedHost)) creation pool ∧
    pool.world.tracked.lookup shopServer = some shopId ∧
    pool.world.containers = mixedHost.insert shopId (.ofSpec shopSpec "eager_morse") := by
  refine ⟨_, .next ⟨⟨rfl, ?_⟩, trivial⟩ (.next ⟨⟨rfl, ?_⟩, ?_⟩ (.single ⟨⟨rfl, ?_⟩, ?_⟩)), rfl, rfl⟩
  · rintro _ ⟨⟩
    exact createShop_fromPanel
  · rintro _ ⟨⟩
  · change shopId ∉ [_, _]
    decide
  · rintro _ ⟨⟩
  · change spareId ∉ [_, _, _]
    decide

/-- The listing attributes two of the three containers. -/
theorem creation_owners {identity : Identity} {id serverId : String}
    (found : (mixedHost.insert shopId (.ofSpec shopSpec "eager_morse")).lookup id = some identity)
    (owner : identity.server = some serverId) :
    id = shopId ∧ serverId = shopServer ∨ id = gameId ∧ serverId = gameServer := by
  rw [mixedHost, HashMap.lookup_insert_eq, HashMap.lookup_insert_eq, HashMap.lookup_insert_eq] at found
  split at found
  · cases found
    have own : (Identity.ofSpec shopSpec "eager_morse").server = some shopServer := by decide +kernel
    cases own.symm.trans owner
    exact .inl ⟨‹_›, rfl⟩
  split at found
  · cases found
    have foreign : Identity.server ⟨["/sky-cache"], ∅⟩ = none := by decide +kernel
    cases foreign.symm.trans owner
  split at found
  · cases found
    have named : Identity.server ⟨["/sky-01234567-89ab-cdef-0123-456789abcdef"], ∅⟩ = some gameServer := by
      decide +kernel
    cases named.symm.trans owner
    exact .inr ⟨‹_›, rfl⟩
  · cases found

theorem created_server_recovered : ∃ pool, Run SampleSteps (Pool.start (.host mixedHost)) creation pool ∧
    (pool.restart readily).world.tracked.lookup shopServer = some shopId ∧
    (pool.restart readily).world.tracked.lookup gameServer = some gameId ∧
    ((pool.restart readily).world.tracked.lookup "cache").isSome = false := by
  obtain ⟨pool, run, tracked, containers⟩ := creation_run
  have lists : (readily 0).answer (.runtime .listManaged) = .ok [] := rfl
  have present : (pool.world.without (readily 0).gone).containers =
      mixedHost.insert shopId (.ofSpec shopSpec "eager_morse") := containers
  refine ⟨pool, run, ?_, ?_, ?_⟩
  · refine (restart_recovers run lists shopServer).2.2 shopId tracked ?_ fun other identity found owner => ?_
    · rw [present]
      rfl
    · rw [present] at found
      exact ((creation_owners found owner).resolve_right fun same => absurd same.2 (by decide)).1
  · have game := restart_recovers run lists gameServer
    have exist : ((pool.restart readily).world.tracked.lookup gameServer).isSome := by
      refine game.2.1.mpr ⟨gameId, ⟨["/sky-01234567-89ab-cdef-0123-456789abcdef"], ∅⟩, ?_, by decide +kernel⟩
      rw [present]
      rfl
    obtain ⟨id, held⟩ := Option.isSome_iff_exists.mp exist
    obtain ⟨identity, found, owner⟩ := game.1 id held
    rw [present] at found
    rw [held, ((creation_owners found owner).resolve_left fun same => absurd same.2 (by decide)).1]
  · rw [Bool.eq_false_iff]
    intro held
    obtain ⟨id, identity, found, owner⟩ := (restart_recovers run lists "cache").2.1.mp held
    rw [present] at found
    rcases creation_owners found owner with ⟨-, same⟩ | ⟨-, same⟩
    · exact absurd same (by decide)
    · exact absurd same (by decide)

/-- The new process starts the container that the old one created. -/
def recoveredStart : List FleetEvent :=
  creation ++ [.restart readily, .command (.receive (lifecycleCommand .start shopServer none)),
    .command (.advance 0 (smooth spareId)), .command (.advance 0 (smooth spareId))]

theorem recovered_server_started : ∃ pool entry,
    Run SampleSteps (Pool.start (.host mixedHost)) recoveredStart pool ∧
      entry ∈ pool.log ∧ entry.exchange.1 = .runtime (.start shopId) ∧
      ∃ identity, entry.before.containers.lookup shopId = some identity ∧ identity.server = some shopServer := by
  obtain ⟨pool, entry, run, member, about, origin, identity, exist⟩ : ∃ pool entry,
      Run SampleSteps (Pool.start (.host mixedHost)) recoveredStart pool ∧
        entry ∈ pool.log ∧ entry.exchange.1 = .runtime (.start shopId) ∧ entry.origin.serverId = shopServer ∧
        ∃ identity, entry.before.containers.lookup shopId = some identity := by
    refine ⟨_, _, .next ⟨⟨rfl, ?_⟩, trivial⟩ (.next ⟨⟨rfl, ?_⟩, ?_⟩ (.next ⟨⟨rfl, ?_⟩, ?_⟩ (.next rfl
      (.next ⟨⟨rfl, ?_⟩, trivial⟩ (.next ⟨⟨rfl, ?_⟩, ?_⟩ (.single ⟨⟨rfl, ?_⟩, ?_⟩)))))),
      List.mem_append_right _ (List.mem_singleton_self _), rfl, rfl, _, rfl⟩
    · rintro _ ⟨⟩
      exact createShop_fromPanel
    · rintro _ ⟨⟩
    · change shopId ∉ [_, _]
      decide
    · rintro _ ⟨⟩
    · change spareId ∉ [_, _, _]
      decide
    · rintro _ ⟨⟩
      exact ⟨rfl, by rintro _ ⟨⟩⟩
    · rintro _ ⟨⟩
    · change spareId ∉ [_, _, _]
      decide
    · rintro _ ⟨⟩
    · change spareId ∉ [_, _, _]
      decide
  refine ⟨pool, entry, run, member, about, identity, exist, ?_⟩
  rw [← origin]
  exact commands_reach_own_containers run entry member shopId (by rw [about]; rfl) identity exist

end SkyDaemon.Agent
