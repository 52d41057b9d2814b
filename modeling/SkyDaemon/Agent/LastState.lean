import SkyDaemon.Foundation.Pool
import SkyDaemon.Agent.Concurrent

/-! Whether the last state event of a server tells the truth. A command changes the state of the
container in one step and announces it in another, so the events of two commands may come in the
other order than their changes. -/
namespace SkyDaemon.Agent
open Protocol Program Transition

/-- A successful start, stop or kill turns the container on or off. -/
def turned : Exchange Call Call.Response → Option (String × Bool)
  | ⟨.runtime (.start id), .ok ()⟩ => some (id, true)
  | ⟨.runtime (.stop id _), .ok ()⟩ | ⟨.runtime (.kill id), .ok ()⟩ => some (id, false)
  | _ => none

def unreportedAfter (pending : Option Bool) (exchange : Exchange Call Call.Response) : Option Bool :=
  match turned exchange, exchange with
  | some (_, state), _ => some state
  | none, ⟨.emit event, _⟩ => if event.kind = .stateChanged then none else pending
  | none, _ => pending

/-- The state that a command has brought about and not yet announced. -/
def unreported (history : CallHistory) : Option Bool := history.foldl unreportedAfter none

@[simp] theorem unreported_append (history : CallHistory) (exchange : Exchange Call Call.Response) :
    unreported (history ++ [exchange]) = unreportedAfter (unreported history) exchange := by
  simp [unreported]

/-- Nothing is to be announced until the state changes. -/
theorem unreported_settled {exchange : Exchange Call Call.Response} (settled : unreported history = none)
    (unturned : turned exchange = none) : unreported (history ++ [exchange]) = none := by
  rw [unreported_append, settled]
  unfold unreportedAfter
  split
  · simp_all
  · split <;> rfl
  · rfl

theorem unreported_turned {exchange : Exchange Call Call.Response} {id : String} {state : Bool}
    (changes : turned exchange = some (id, state)) (history : CallHistory) :
    unreported (history ++ [exchange]) = some state := by
  rw [unreported_append]
  unfold unreportedAfter
  split <;> simp_all

def stateText : Bool → String
  | true => "running"
  | false => "offline"

/-- A start, stop or kill of the server, for its one container. -/
def Lifecycle (server container : String) (cmd : CommandPayload) : Bool :=
  cmd.serverId == server && (cmd.action == .start || cmd.action == .stop || cmd.action == .kill) &&
    cmd.containerId.all (· == container)

/-- The container that the command is about. -/
def Resolved (cmd : CommandPayload) (history : CallHistory) (id : String) : Prop :=
  cmd.containerId = some id ∨ (⟨.trackedGet cmd.serverId, some id⟩ : Exchange Call Call.Response) ∈ history

theorem Resolved.append {id : String} (resolved : Resolved cmd history id) (more : CallHistory) :
    Resolved cmd (history ++ more) id :=
  resolved.imp_right fun known => List.mem_append_left more known

/-- A lifecycle command changes and tracks its own container only, and announces what it did. -/
def Reports (cmd : CommandPayload) (history : CallHistory) : Call → Prop
  | .runtime (.start id) | .runtime (.stop id _) | .runtime (.kill id) => Resolved cmd history id
  | .trackedInsert _ id => Resolved cmd history id
  | .trackedRemove _ | .trackedReconcile _ => False
  | .emit event =>
      ∃ state, unreported history = some state ∧ event = ⟨cmd.serverId, .stateChanged, stateText state⟩
  | _ => True

namespace Dispatcher

theorem containerFor_reports (cmd : CommandPayload) :
    (containerFor cmd).attempt.Meets (Reports cmd)
      (fun later result => unreported later = none ∧ ∀ id, result = .ok id → Resolved cmd later id) [] := by
  unfold containerFor
  cases given : cmd.containerId with
  | some id =>
    refine ⟨rfl, ?_⟩
    rintro _ ⟨⟩
    exact .inl given
  | none =>
    refine ⟨trivial, fun known => ?_⟩
    cases known with
    | none => exact ⟨rfl, fun _ => nofun⟩
    | some id =>
      refine ⟨rfl, ?_⟩
      rintro _ ⟨⟩
      exact .inr List.mem_cons_self

section Announce
variable {cmd : CommandPayload} {history : CallHistory} {id : String}

/-- No exchange of the console stream is a change of state. -/
theorem startConsoleStream_reports (settled : unreported history = none) :
    (startConsoleStream serverId id).attempt.Meets (Reports cmd) (fun later _ => unreported later = none)
      history := by
  refine ⟨trivial, fun active => ?_⟩
  have checked : unreported (history ++ [⟨.consolesContains serverId, active⟩]) = none :=
    unreported_settled settled rfl
  cases active with
  | true => exact checked
  | false =>
    refine ⟨trivial, fun attached => ?_⟩
    have tried : unreported (history ++ [⟨.consolesContains serverId, false⟩] ++
        [⟨.runtime (.attach id), attached⟩]) = none := unreported_settled checked rfl
    cases attached with
    | error message => exact tried
    | ok session => exact ⟨trivial, fun _ => ⟨trivial, fun _ => unreported_settled (unreported_settled tried rfl) rfl⟩⟩

/-- What a command announces after the change it made. -/
theorem announced {state : Bool} (pending : unreported history = some state) :
    Reports cmd history (.emit ⟨cmd.serverId, .stateChanged, stateText state⟩) ∧
    ∀ answer, unreported (history ++ [⟨.emit ⟨cmd.serverId, .stateChanged, stateText state⟩, answer⟩]) = none := by
  refine ⟨⟨state, pending, rfl⟩, fun answer => ?_⟩
  rw [unreported_append]
  rfl

/-- A command that has found its container goes on from there. -/
theorem resolved_reports (cmd : CommandPayload) {rest : String → Task Unit}
    (following : ∀ later id, unreported later = none → Resolved cmd later id →
      (rest id).attempt.Meets (Reports cmd) (fun last _ => unreported last = none) later) :
    (containerFor cmd >>= rest).attempt.Meets (Reports cmd) (fun later _ => unreported later = none) [] := by
  apply Meets.attempt_bind
  apply (containerFor_reports cmd).weaken
  rintro later (message | id) ⟨settled, resolved⟩
  · exact settled
  · exact following later id settled (resolved id rfl)

/-- What is to be announced after the runtime was asked to halt a container. -/
def Halted (history : CallHistory) (result : Except String (Except String Unit)) : Prop :=
  unreported history = match result with
    | .ok (.ok ()) => some false
    | _ => none

theorem takeOffline_reports (cmd : CommandPayload) {halt : String → Task (Except String Unit)}
    (halts : ∀ later id, unreported later = none → Resolved cmd later id →
      (halt id).attempt.Meets (Reports cmd) Halted later) :
    (takeOffline cmd halt).attempt.Meets (Reports cmd) (fun later _ => unreported later = none) [] := by
  apply resolved_reports
  intro later id settled own
  apply Meets.attempt_bind
  apply (halts later id settled own).weaken
  rintro last (message | message | done) halted
  · exact halted
  · exact halted
  · exact announced halted

theorem start_reports (cmd : CommandPayload) :
    (start cmd).attempt.Meets (Reports cmd) (fun later _ => unreported later = none) [] := by
  apply resolved_reports
  intro later id settled own
  refine ⟨own, fun answer => ?_⟩
  cases answer with
  | error message => exact unreported_settled settled rfl
  | ok done =>
    refine ⟨own.append _, fun tracked => ?_⟩
    have pending : unreported (later ++ [⟨.runtime (.start id), .ok done⟩] ++
        [⟨.trackedInsert cmd.serverId id, tracked⟩]) = some true := by
      rw [unreported_append, unreported_append]
      rfl
    obtain ⟨allowed, settled⟩ := @announced cmd _ true pending
    exact ⟨allowed, fun told => startConsoleStream_reports (settled told)⟩

end Announce

/-- A lifecycle command has nothing left to announce when it ends. -/
theorem handle_reports (dispatcher : Dispatcher) (codec : Base64) (lifecycle : Lifecycle server container cmd = true) :
    (dispatcher.handle codec cmd).Meets (Reports cmd) (fun later _ => unreported later = none) [] := by
  have inner : (dispatcher.handleInner codec cmd).attempt.Meets (Reports cmd)
      (fun later _ => unreported later = none) [] := by
    have discarded {x : Task Unit}
        (meets : x.attempt.Meets (Reports cmd) (fun later _ => unreported later = none) []) :
        (x >>= fun _ => pure none : Task (Option ActionResult)).attempt.Meets (Reports cmd)
          (fun later _ => unreported later = none) [] := by
      apply Meets.attempt_bind
      apply meets.weaken
      rintro later (message | done) settled
      · exact settled
      · exact settled
    unfold handleInner
    cases action : cmd.action with
    | start => exact discarded (start_reports cmd)
    | stop | kill =>
      refine discarded (takeOffline_reports cmd fun later id settled own => ⟨own, fun answer => ?_⟩)
      cases answer with
      | error message => exact unreported_settled settled rfl
      | ok done => exact unreported_turned rfl later
    | _ => simp [Lifecycle, action] at lifecycle
  apply inner.bind
  rintro later (message | result) settled
  · exact settled
  · exact settled

end Dispatcher

/-- The last state that was announced for the server. -/
def World.lastState (world : World) (server : String) : Option String :=
  ((world.events.filter fun event =>
    event.payload.kind == .stateChanged && event.payload.serverId == server).getLast?).map (·.payload.message)

section Call
variable {cmd : CommandPayload} {history : CallHistory} {operation : Call} {answer : operation.Response}
  {server container : String}

/-- A change of state is one of the command's own container. -/
theorem Reports.turned_own {id : String} {state : Bool} (reports : Reports cmd history operation)
    (changes : turned ⟨operation, answer⟩ = some (id, state)) : Resolved cmd history id := by
  unfold turned at changes
  split at changes <;> cases changes <;> rename_i same <;> cases same <;> exact reports

theorem Reports.tracked_own (reports : Reports cmd history operation)
    (own : ∀ id, Resolved cmd history id → id = container) (world : World)
    (known : ∀ id, world.tracked.lookup server = some id → id = container) :
    ∀ id, (world.trackedAfter operation).lookup server = some id → id = container := by
  cases operation with
  | trackedInsert serverId containerId =>
    intro id found
    simp only [World.trackedAfter, HashMap.lookup_insert_eq] at found
    split at found
    · cases found
      exact own containerId reports
    · exact known id found
  | trackedRemove serverId => exact reports.elim
  | trackedReconcile found => exact reports.elim
  | _ => exact known

/-- An exchange announces what the command was to announce, or no state at all. -/
theorem Reports.announces (reports : Reports cmd history operation) (world : World) (choice : Choice)
    (answer : operation.Response) (server : String) :
    (∃ state, unreported history = some state ∧ turned ⟨operation, answer⟩ = none ∧
      (world.effect choice operation answer).lastState cmd.serverId = some (stateText state) ∧
      unreported (history ++ [⟨operation, answer⟩]) = none) ∨
    (world.effect choice operation answer).lastState server = world.lastState server ∧
      (turned ⟨operation, answer⟩ = none →
        unreported (history ++ [⟨operation, answer⟩]) = unreported history) := by
  cases operation with
  | emit event =>
    obtain ⟨state, pending, rfl⟩ := reports
    refine .inl ⟨state, pending, rfl, ?_, ?_⟩
    · simp [World.lastState, World.effect, World.eventsAfter]
    · rw [unreported_append]
      rfl
  | runtime operation =>
    refine .inr ⟨rfl, fun unturned => ?_⟩
    rw [unreported_append]
    unfold unreportedAfter
    rw [unturned]
  | _ => exact .inr ⟨rfl, fun _ => unreported_append _ _⟩

end Call

/-- What a step asks and is answered, if it is one of a command. -/
def Daemon.exchanged (daemon : Daemon) : Label → Option (Exchange Call Call.Response)
  | .advance index choice =>
      match (daemon.threads[index]?).map Thread.rest with
      | some (.call operation _) => some ⟨operation, daemon.world.reply operation (choice.answer operation)⟩
      | _ => none
  | _ => none

/-- A daemon and the state of the one container that it manages for the server. -/
structure Host where
  daemon : Daemon
  running : Bool

namespace Host

/-- The container changes state with the calls of the daemon that succeed. -/
def runningAfter (container : String) (host : Host) (label : Label) : Bool :=
  match (host.daemon.exchanged label).bind turned with
  | some (id, state) => if id = container then state else host.running
  | none => host.running

section Step
variable (dispatcher : Dispatcher) (codec : Base64) (server container : String)

def step (host : Host) (label : Label) : Option Host :=
  (host.daemon.step dispatcher codec label).map fun after => ⟨after, host.runningAfter container label⟩

/-- Only lifecycle commands of the server arrive. -/
def admits : Label → Bool
  | .receive cmd => Lifecycle server container cmd
  | _ => true

def Steps : Host → Label → Host → Prop :=
  Guarded (fun host label after => host.step dispatcher codec container label = some after)
    fun _ label => admits server container label = true

/-- No command turns the container while another is still to announce the opposite state. -/
def unopposed (host : Host) (label : Label) : Bool :=
  match (host.daemon.exchanged label).bind turned with
  | some (_, state) => host.daemon.threads.all fun thread => unreported thread.history != some (!state)
  | none => true

/-- Every command has come to its ack. -/
def finished (host : Host) : Bool :=
  host.daemon.threads.all fun thread => match thread.rest with
    | .done _ => true
    | _ => false

end Step

variable {dispatcher : Dispatcher} {codec : Base64} {server container : String} {host after : Host} {label : Label}

/-- A command arrives, or one makes a call, or nothing changes that a command announces. -/
inductive StepKind (dispatcher : Dispatcher) (codec : Base64) (server container : String)
    (host : Host) (label : Label) (after : Host) : Prop where
  | received (cmd : CommandPayload) (lifecycle : Lifecycle server container cmd = true)
      (world : after.daemon.world = host.daemon.world)
      (threads : after.daemon.threads = host.daemon.threads ++ [.spawn (dispatcher.handle codec) cmd])
      (running : after.running = host.running)
  | called (index : Nat) (choice : Choice) (thread : CommandThread) (operation : Call)
      (next : operation.Response → Task AckPayload) (answer : operation.Response)
      (found : host.daemon.threads[index]? = some thread) (waiting : thread.rest = .call operation next)
      (answered : answer = host.daemon.world.reply operation (choice.answer operation))
      (asked : host.daemon.exchanged label = some ⟨operation, answer⟩)
      (world : after.daemon.world = host.daemon.world.effect choice operation answer)
      (threads : after.daemon.threads = host.daemon.threads.set index (thread.resume operation answer (next answer)))
      (running : after.running = host.runningAfter container label)
  | other (threads : after.daemon.threads = host.daemon.threads)
      (tracked : after.daemon.world.tracked = host.daemon.world.tracked)
      (lastState : after.daemon.world.lastState server = host.daemon.world.lastState server)
      (running : after.running = host.running)

theorem Steps.kind (stepped : Steps dispatcher codec server container host label after) :
    StepKind dispatcher codec server container host label after := by
  obtain ⟨taken, admitted⟩ := stepped
  obtain ⟨daemon, moved, rfl⟩ := Option.map_eq_some_iff.mp taken
  cases label with
  | receive cmd =>
    cases moved
    exact .received cmd admitted rfl rfl rfl
  | advance index choice =>
    obtain ⟨thread, operation, next, answer, found, waiting, rfl, rfl⟩ := Daemon.advance_cases moved
    refine .called index choice thread operation next _ found waiting rfl ?_ rfl rfl rfl
    simp only [Daemon.exchanged, found, Option.map_some, waiting]
  | print container text =>
    cases moved
    exact .other rfl rfl rfl rfl
  | close session =>
    cases moved
    exact .other rfl rfl rfl rfl
  | forward index =>
    obtain ⟨_, _, _, _, -, -, -, rfl⟩ := Daemon.forward_cases moved
    refine .other rfl rfl ?_ rfl
    simp [World.lastState]
  | finish index =>
    obtain ⟨_, -, -, rfl⟩ := Daemon.finish_cases moved
    exact .other rfl rfl rfl rfl

/-- A command keeps to its container and has nothing to announce but the present state. -/
structure Current (server container : String) (running : Bool) (thread : CommandThread) : Prop where
  server : thread.origin.serverId = server
  obeys : thread.Obeys Reports fun _ later _ => unreported later = none
  own : ∀ id, Resolved thread.origin thread.history id → id = container
  current : unreported thread.history ≠ some (!running)

/-- Either some command is still to announce the state or the last announcement is right. -/
structure Truthful (server container : String) (host : Host) : Prop where
  tracked : ∀ id, host.daemon.world.tracked.lookup server = some id → id = container
  threads : ∀ (i : Nat) thread, host.daemon.threads[i]? = some thread →
    Current server container host.running thread
  last : (∃ (i : Nat) (thread : CommandThread), host.daemon.threads[i]? = some thread ∧
      unreported thread.history ≠ none) ∨
    ∀ text, host.daemon.world.lastState server = some text → text = stateText host.running

theorem Truthful.received (truthful : host.Truthful server container)
    (lifecycle : Lifecycle server container cmd = true) (world : after.daemon.world = host.daemon.world)
    (threads : after.daemon.threads = host.daemon.threads ++ [.spawn (dispatcher.handle codec) cmd])
    (running : after.running = host.running) : after.Truthful server container := by
  constructor
  · rw [world]
    exact truthful.tracked
  · intro i thread found
    rw [threads, List.getElem?_append] at found
    rw [running]
    split at found
    · exact truthful.threads i thread found
    · cases List.mem_singleton.mp (List.mem_of_getElem? found)
      have reports := dispatcher.handle_reports codec lifecycle
      simp only [Lifecycle, Bool.and_eq_true, beq_iff_eq] at lifecycle
      obtain ⟨⟨same, -⟩, given⟩ := lifecycle
      refine ⟨same, reports, ?_, nofun⟩
      rintro id (named | known)
      · have named : cmd.containerId = some id := named
        simpa [named] using given
      · exact nomatch known
  · rw [world, threads, running]
    refine truthful.last.imp_left ?_
    rintro ⟨i, thread, found, pending⟩
    exact ⟨i, thread, by rw [List.getElem?_append_left (List.getElem?_eq_some_iff.mp found).1, found], pending⟩

section Called
variable {index : Nat} {choice : Choice} {thread : CommandThread} {operation : Call}
  {next : operation.Response → Task AckPayload} {answer : operation.Response}

/-- What the command is told to be its container is the container. -/
theorem Current.resolved {running : Bool} (truthful : host.Truthful server container)
    (known : Current server container running thread)
    (answered : answer = host.daemon.world.reply operation (choice.answer operation)) :
    ∀ id, Resolved thread.origin (thread.history ++ [⟨operation, answer⟩]) id → id = container := by
  rintro id (named | told)
  · exact known.own id (.inl named)
  · rcases List.mem_append.mp told with before | now
    · exact known.own id (.inr before)
    · cases List.mem_singleton.mp now
      rw [known.server] at answered
      exact truthful.tracked id answered.symm

/-- After a call nobody has anything to announce but the state that the container is in now, and
the last announcement is right or to be superseded. -/
theorem Truthful.called (truthful : host.Truthful server container) (unopposed : host.unopposed label = true)
    (found : host.daemon.threads[index]? = some thread) (waiting : thread.rest = .call operation next)
    (answered : answer = host.daemon.world.reply operation (choice.answer operation))
    (asked : host.daemon.exchanged label = some ⟨operation, answer⟩)
    (world : after.daemon.world = host.daemon.world.effect choice operation answer)
    (threads : after.daemon.threads = host.daemon.threads.set index (thread.resume operation answer (next answer)))
    (running : after.running = host.runningAfter container label) : after.Truthful server container := by
  have known := truthful.threads index thread found
  have reports := known.obeys.next waiting
  have inRange : index < host.daemon.threads.length := (List.getElem?_eq_some_iff.mp found).1
  have here : after.daemon.threads[index]? = some (thread.resume operation answer (next answer)) := by
    rw [threads, List.getElem?_set_self inRange]
  have away {i : Nat} (other : i ≠ index) : after.daemon.threads[i]? = host.daemon.threads[i]? := by
    rw [threads, List.getElem?_set_ne (Ne.symm other)]
  rw [runningAfter, asked, Option.bind_some] at running
  rw [Host.unopposed, asked, Option.bind_some] at unopposed
  have resumed (settled : unreported (thread.history ++ [⟨operation, answer⟩]) ≠ some (!after.running)) :
      Current server container after.running (thread.resume operation answer (next answer)) :=
    ⟨known.server, known.obeys.resume waiting answer, known.resolved truthful answered, settled⟩
  have tracked : ∀ id, after.daemon.world.tracked.lookup server = some id → id = container := by
    rw [world]
    exact reports.tracked_own known.own _ truthful.tracked
  cases changes : turned ⟨operation, answer⟩ with
  | some change =>
    -- The container is turned: the command that did it is now to announce it.
    obtain ⟨id, state⟩ := change
    simp only [changes, reports.turned_own changes |> known.own id, if_true] at running
    simp only [changes, List.all_eq_true, bne_iff_ne] at unopposed
    have pending := unreported_turned changes thread.history
    refine ⟨tracked, fun i other there => ?_, .inl ⟨index, _, here, by simp [Thread.resume, pending]⟩⟩
    by_cases same : i = index
    · subst same
      cases here.symm.trans there
      exact resumed (by simp [pending, running])
    · rw [away same] at there
      obtain ⟨ofServer, obeys, own, -⟩ := truthful.threads i other there
      exact ⟨ofServer, obeys, own, by rw [running]; exact unopposed other (List.mem_of_getElem? there)⟩
  | none =>
    simp only [changes] at running
    have others {i : Nat} {other : CommandThread} (apart : i ≠ index)
        (there : after.daemon.threads[i]? = some other) : Current server container after.running other := by
      rw [away apart] at there
      rw [running]
      exact truthful.threads i other there
    rcases reports.announces host.daemon.world choice answer server with
      ⟨state, pending, -, announced, settled⟩ | ⟨sameLast, sameUnreported⟩
    · -- What it announces is the present state.
      have present : state = host.running := by
        have opposite := known.current
        rw [pending] at opposite
        cases state <;> cases isRunning : host.running <;> simp_all
      refine ⟨tracked, fun i other there => ?_, .inr fun text last => ?_⟩
      · by_cases same : i = index
        · subst same
          cases here.symm.trans there
          exact resumed (by simp [settled])
        · exact others same there
      · rw [known.server, ← world, last] at announced
        rw [running, ← present]
        exact Option.some.inj announced
    · have unchanged := sameUnreported changes
      refine ⟨tracked, fun i other there => ?_, ?_⟩
      · by_cases same : i = index
        · subst same
          cases here.symm.trans there
          exact resumed (by rw [unchanged, running]; exact known.current)
        · exact others same there
      · rw [world, sameLast, running]
        refine truthful.last.imp_left ?_
        rintro ⟨i, other, there, pending⟩
        by_cases same : i = index
        · subst same
          cases found.symm.trans there
          exact ⟨i, _, here, by simpa [Thread.resume, unchanged] using pending⟩
        · exact ⟨i, other, (away same).trans there, pending⟩

end Called

theorem Truthful.step (truthful : host.Truthful server container)
    (stepped : Steps dispatcher codec server container host label after)
    (unopposed : host.unopposed label = true) : after.Truthful server container := by
  cases stepped.kind with
  | received cmd lifecycle world threads running => exact truthful.received lifecycle world threads running
  | called index choice thread operation next answer found waiting answered asked world threads running =>
    exact truthful.called unopposed found waiting answered asked world threads running
  | other threads tracked lastState running =>
    obtain ⟨known, current, last⟩ := truthful
    constructor
    · rwa [tracked]
    · rwa [threads, running]
    · rwa [threads, lastState, running]

/-- When every command has ended, the last announced state of the server is the container's, if
no command turned the container while the opposite state was still to be announced. -/
theorem last_state_truthful {tracked : HashMap String String} {running : Bool} {labels : List Label}
    (known : ∀ id, tracked.lookup server = some id → id = container)
    (run : Run (Guarded (Steps dispatcher codec server container) fun host label => host.unopposed label = true)
      ⟨.start tracked, running⟩ labels host)
    (ended : host.finished = true) :
    ∀ text, host.daemon.world.lastState server = some text → (text = "running" ↔ host.running = true) := by
  have initial : Truthful server container ⟨.start tracked, running⟩ := by
    refine ⟨known, fun i thread found => ?_, .inr fun text last => ?_⟩
    · simp [Daemon.start] at found
    · simp [Daemon.start, World.lastState] at last
  have truthful : host.Truthful server container :=
    run.invariant (fun truthful guarded => truthful.step guarded.1 guarded.2) initial
  intro text last
  rcases truthful.last with ⟨i, thread, found, pending⟩ | right
  · have present := List.mem_of_getElem? found
    have isDone := List.all_eq_true.mp ended thread present
    split at isDone
    · rename_i ack done
      exact absurd ((truthful.threads i thread found).obeys.ended done) pending
    · contradiction
  · rw [right text last]
    cases host.running <;> decide

/-- Server `s1` with its container `c1`, which is off. -/
def idle : Host := ⟨.tracking, false⟩

/-- A run on that host; every step passes the check. -/
def exec (check : Host → Label → Bool) (labels : List Label) : Option Host :=
  labels.foldlM (fun host label =>
    if check host label then host.step Dispatcher.defaultDispatcher Dispatcher.unusedCodec "c1" label else none) idle

def startThenStop : List Label :=
  [.receive (lifecycleCommand .start "s1" none), .receive (lifecycleCommand .stop "s1" (some "c1")), .call 0, .call 0,
    .call 0, .call 0, .call 0, .call 0, .call 0, .call 0, .call 1, .call 1]

/-- The stop comes after the start was announced. -/
theorem last_state_after_stop : ∃ host : Host,
    Run (Guarded (Steps Dispatcher.defaultDispatcher Dispatcher.unusedCodec "s1" "c1")
      fun host label => host.unopposed label = true) idle startThenStop host ∧
    host.finished = true ∧ host.daemon.world.lastState "s1" = some "offline" ∧
    ("offline" = "running" ↔ host.running = true) := by
  have facts : (exec (fun host label => admits "s1" "c1" label && host.unopposed label) startThenStop).any
      (fun host => host.finished && host.daemon.world.lastState "s1" == some "offline") = true := by
    decide +kernel
  obtain ⟨host, ran, shown⟩ := (Option.any_eq_true _ _).mp facts
  rw [Bool.and_eq_true, beq_iff_eq] at shown
  have run : Run (Guarded (Steps Dispatcher.defaultDispatcher Dispatcher.unusedCodec "s1" "c1")
      fun host label => host.unopposed label = true) idle startThenStop host := by
    apply (Run.of_foldlM_guarded ran).mono
    rintro host label after ⟨stepped, checked⟩
    rw [Bool.and_eq_true] at checked
    exact ⟨⟨stepped, checked.1⟩, checked.2⟩
  have known : ∀ id, ((∅ : HashMap String String).insert "s1" "c1").lookup "s1" = some id → id = "c1" := by
    rintro id ⟨⟩
    rfl
  exact ⟨host, run, shown.1, shown.2, last_state_truthful known run shown.1 "offline" shown.2⟩

/-- The stop runs whole between the start and its announcement. -/
def stopOvertakes : List Label :=
  [.receive (lifecycleCommand .start "s1" (some "c1")), .receive (lifecycleCommand .stop "s1" (some "c1")), .call 0,
    .call 1, .call 1, .call 0, .call 0, .call 0, .call 0, .call 0, .call 0]

/-- The container is off and the panel was last told that it is running. -/
theorem last_state_stale : ∃ host : Host,
    Run (Steps Dispatcher.defaultDispatcher Dispatcher.unusedCodec "s1" "c1") idle stopOvertakes host ∧
    host.finished = true ∧ host.daemon.world.lastState "s1" = some "running" ∧ host.running = false := by
  have facts : (exec (fun _ label => admits "s1" "c1" label) stopOvertakes).any
      (fun host => host.finished && host.daemon.world.lastState "s1" == some "running" && !host.running) = true := by
    decide +kernel
  obtain ⟨host, ran, shown⟩ := (Option.any_eq_true _ _).mp facts
  simp only [Bool.and_eq_true, beq_iff_eq, Bool.not_eq_true'] at shown
  exact ⟨host, Run.of_foldlM_guarded ran, shown.1.1, shown.1.2, shown.2⟩

end Host
end SkyDaemon.Agent
