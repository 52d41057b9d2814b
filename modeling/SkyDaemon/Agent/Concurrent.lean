import SkyDaemon.Foundation.Threads
import SkyDaemon.Foundation.Transition
import SkyDaemon.Agent.Conduct

/-! Commands that run side by side with each other and with the console pumps. A step
is one call of one command, answered at once, or one step of a pump, a container or a
connection; anything may come between two calls. -/
namespace SkyDaemon.Agent
open Protocol Program

/-- An attached console. -/
structure AttachSession where
  container : String
  /-- The connection is up, so what the container prints arrives. -/
  isOpen : Bool
  locked : Bool
  stdin : List UInt8
  deriving DecidableEq, Repr

/-- A printed line on its way to the pump of one session. -/
structure Line where
  session : SessionId
  number : Nat
  text : String
  deriving DecidableEq, Repr

/-- The task that `start_console_stream` spawns. -/
structure PumpTask where
  serverId : String
  session : SessionId
  deriving DecidableEq, Repr

structure Emitted where
  payload : EventPayload
  /-- The number of the printed line that the event forwards. -/
  printed : Option Nat
  deriving DecidableEq, Repr

/-- What all commands and pumps share. -/
structure World where
  tracked : HashMap String String
  consoles : HashMap String SessionId
  /-- The containers that the runtime has removed. -/
  removed : List String
  sessions : List AttachSession
  lines : List Line
  /-- How many lines the containers have printed. -/
  printed : Nat
  pumps : List PumpTask
  events : List Emitted

/-- What the surroundings decide in a step: the answer of a call that is theirs, the
containers that the runtime removes along the way, and how much of a failing write
gets through. -/
structure Choice where
  answer : (call : Call) → call.Response
  gone : List String
  written : Nat

namespace World

/-- The stdin lock is the one thing a call has to wait for. -/
def blocked (world : World) : Call → Bool
  | .lockStdin session => (world.sessions[session]?).any (·.locked)
  | _ => false

/-- The answer: the maps answer for themselves, and a new session gets the next number. -/
def reply (world : World) : (call : Call) → call.Response → call.Response
  | .trackedGet serverId, _ => world.tracked.lookup serverId
  | .trackedSnapshot, _ => world.tracked.entries.map fun entry => (entry.1, entry.2)
  | .consolesContains serverId, _ => (world.consoles.lookup serverId).isSome
  | .consolesGet serverId, _ => world.consoles.lookup serverId
  | .runtime (.attach _), choice => choice.map fun _ => world.sessions.length
  | _, choice => choice

/-- `entry(..).or_insert(..)`. -/
def orInsert (tracked : HashMap String String) (found : ManagedContainer) : HashMap String String :=
  match tracked.lookup found.serverId with
  | some _ => tracked
  | none => tracked.insert found.serverId found.containerId

/-! What an answered call changes, field by field. -/

def trackedAfter (world : World) : Call → HashMap String String
  | .trackedInsert serverId containerId => world.tracked.insert serverId containerId
  | .trackedRemove serverId => world.tracked.erase serverId
  | .trackedReconcile found => found.foldl orInsert world.tracked
  | _ => world.tracked

def consolesAfter (world : World) : Call → HashMap String SessionId
  | .consolesInsert serverId session => world.consoles.insert serverId session
  | .consolesRemove serverId => world.consoles.erase serverId
  | _ => world.consoles

/-- Creating and starting may remove other containers: the old one of the same name,
or one that holds a wanted port. -/
def removedAfter (world : World) (choice : Choice) : (call : Call) → call.Response → List String
  | .runtime (.create _), _ | .runtime (.start _), _ => world.removed ++ choice.gone
  | .runtime (.remove id), .ok () => world.removed ++ id :: choice.gone
  | .runtime (.remove _), .error _ => world.removed ++ choice.gone
  | _, _ => world.removed

def sessionsAfter (world : World) (choice : Choice) : (call : Call) → call.Response → List AttachSession
  | .runtime (.attach containerId), .ok _ => world.sessions ++ [⟨containerId, true, false, []⟩]
  | .lockStdin session, _ => world.sessions.modify session fun s => { s with locked := true }
  | .unlockStdin session, _ => world.sessions.modify session fun s => { s with locked := false }
  | .writeStdin session content, .ok () =>
      world.sessions.modify session fun s => { s with stdin := s.stdin ++ content }
  | .writeStdin session content, .error _ =>
      world.sessions.modify session fun s => { s with stdin := s.stdin ++ content.take choice.written }
  | _, _ => world.sessions

def pumpsAfter (world : World) : Call → List PumpTask
  | .spawnPump serverId session => world.pumps ++ [⟨serverId, session⟩]
  | _ => world.pumps

def eventsAfter (world : World) : Call → List Emitted
  | .emit event => world.events ++ [⟨event, none⟩]
  | _ => world.events

def effect (world : World) (choice : Choice) (call : Call) (answer : call.Response) : World where
  tracked := world.trackedAfter call
  consoles := world.consolesAfter call
  removed := world.removedAfter choice call answer
  sessions := world.sessionsAfter choice call answer
  lines := world.lines
  printed := world.printed
  pumps := world.pumpsAfter call
  events := world.eventsAfter call

/-- The sessions that hear what the container prints. -/
def listeners (world : World) (container : String) : List SessionId :=
  (List.range world.sessions.length).filter fun session =>
    (world.sessions[session]?).any fun s => s.isOpen && s.container == container

def print (world : World) (container text : String) : World :=
  { world with
    lines := world.lines ++ (world.listeners container).map fun session => ⟨session, world.printed, text⟩
    printed := world.printed + 1 }

def close (world : World) (session : SessionId) : World :=
  { world with sessions := world.sessions.modify session fun s => { s with isOpen := false } }

/-- The pump takes the next line of its session and emits it. -/
def forward (world : World) (pump : PumpTask) : Option World :=
  (world.lines.find? (·.session == pump.session)).map fun line =>
    { world with
      lines := world.lines.eraseP (·.session == pump.session)
      events := world.events ++ [⟨⟨pump.serverId, .consoleLine, line.text⟩, some line.number⟩] }

/-- The connection is gone and every line was taken: the pump takes the server's entry
out of the map, whichever session it holds, and ends. -/
def finish (world : World) (index : Nat) (pump : PumpTask) : Option World :=
  if (world.sessions[pump.session]?).any (·.isOpen) ∨ (world.lines.any (·.session == pump.session)) then
    none
  else some { world with
    consoles := world.consoles.erase pump.serverId
    pumps := world.pumps.eraseIdx index }

end World

/-- A command on its way. -/
abbrev CommandThread := Thread CommandPayload Call Call.Response AckPayload

structure Daemon where
  world : World
  threads : List CommandThread

inductive Label where
  /-- A verified command arrives and gets a task of its own. -/
  | receive (cmd : CommandPayload)
  /-- The task makes its next call. -/
  | advance (thread : Nat) (choice : Choice)
  | print (container text : String)
  /-- The connection of the session ends. -/
  | close (session : SessionId)
  | forward (pump : Nat)
  | finish (pump : Nat)

namespace Daemon

/-- The daemon after its startup has filled the map. -/
def start (tracked : HashMap String String) : Daemon where
  world := ⟨tracked, ∅, [], [], [], 0, [], []⟩
  threads := []

variable (dispatcher : Dispatcher) (codec : Base64)

/-- One call: the thread gets the answer and goes on. -/
def advance (daemon : Daemon) (index : Nat) (choice : Choice) (thread : CommandThread) : Option Daemon :=
  match thread.rest with
  | .call operation next =>
      if daemon.world.blocked operation then none
      else
        let answer := daemon.world.reply operation (choice.answer operation)
        some {
          world := daemon.world.effect choice operation answer
          threads := daemon.threads.set index (thread.resume operation answer (next answer)) }
  | _ => none

def step (daemon : Daemon) : Label → Option Daemon
  | .receive cmd =>
      some { daemon with threads := daemon.threads ++ [.spawn (dispatcher.handle codec) cmd] }
  | .advance index choice => (daemon.threads[index]?).bind (daemon.advance index choice)
  | .print container text => some { daemon with world := daemon.world.print container text }
  | .close session => some { daemon with world := daemon.world.close session }
  | .forward index =>
      (daemon.world.pumps[index]?).bind fun pump =>
        (daemon.world.forward pump).map fun world => { daemon with world := world }
  | .finish index =>
      (daemon.world.pumps[index]?).bind fun pump =>
        (daemon.world.finish index pump).map fun world => { daemon with world := world }

def Steps (daemon : Daemon) (label : Label) (after : Daemon) : Prop :=
  daemon.step dispatcher codec label = some after

variable {dispatcher codec} {daemon after : Daemon}

/-- An advancing thread was at a call, and only that call changed the world. -/
theorem advance_cases (stepped : daemon.Steps dispatcher codec (.advance index choice) after) :
    ∃ thread operation next answer, daemon.threads[index]? = some thread ∧
      thread.rest = .call operation next ∧
      answer = daemon.world.reply operation (choice.answer operation) ∧
      after = ⟨daemon.world.effect choice operation answer,
        daemon.threads.set index (thread.resume operation answer (next answer))⟩ := by
  obtain ⟨thread, found, advanced⟩ := Option.bind_eq_some_iff.mp stepped
  unfold advance at advanced
  split at advanced
  · rename_i operation next waiting
    split at advanced
    · contradiction
    · cases advanced
      exact ⟨thread, operation, next, _, found, waiting, rfl, rfl⟩
  · contradiction

theorem forward_cases (stepped : daemon.Steps dispatcher codec (.forward index) after) :
    ∃ pump before line later, pump ∈ daemon.world.pumps ∧
      daemon.world.lines = before ++ line :: later ∧ line.session = pump.session ∧
      after = { daemon with world := { daemon.world with
        lines := before ++ later
        events := daemon.world.events ++
          [⟨⟨pump.serverId, .consoleLine, line.text⟩, some line.number⟩] } } := by
  obtain ⟨pump, found, forwarded⟩ := Option.bind_eq_some_iff.mp stepped
  obtain ⟨world, taken, rfl⟩ := Option.map_eq_some_iff.mp forwarded
  obtain ⟨line, first, rfl⟩ := Option.map_eq_some_iff.mp taken
  obtain ⟨own, before, later, split, others⟩ := List.find?_eq_some_iff_append.mp first
  refine ⟨pump, before, line, later, List.mem_of_getElem? found, split, by simpa using own, ?_⟩
  have erased : daemon.world.lines.eraseP (·.session == pump.session) = before ++ later := by
    rw [split, List.eraseP_append_right _ (by simpa using others)]
    simp only [List.eraseP_cons, own, cond_true]
  rw [erased]

theorem finish_cases (stepped : daemon.Steps dispatcher codec (.finish index) after) :
    ∃ pump, daemon.world.pumps[index]? = some pump ∧
      (∀ session, daemon.world.sessions[pump.session]? = some session → session.isOpen = false) ∧
      after = { daemon with world := { daemon.world with
        consoles := daemon.world.consoles.erase pump.serverId
        pumps := daemon.world.pumps.eraseIdx index } } := by
  obtain ⟨pump, found, finished⟩ := Option.bind_eq_some_iff.mp stepped
  obtain ⟨world, ended, rfl⟩ := Option.map_eq_some_iff.mp finished
  unfold World.finish at ended
  split at ended
  · contradiction
  · rename_i drained
    cases ended
    refine ⟨pump, found, ?_, rfl⟩
    intro session known
    by_contra still
    apply drained
    left
    rw [known, Option.any_some]
    simpa using still

/-- Where a task of the next state comes from. -/
theorem step_threads (stepped : daemon.Steps dispatcher codec label after)
    (member : thread ∈ after.threads) :
    thread ∈ daemon.threads ∨ (∃ cmd, label = .receive cmd ∧ thread = .spawn (dispatcher.handle codec) cmd) ∨
      ∃ index choice earlier operation next answer, label = .advance index choice ∧
        daemon.threads[index]? = some earlier ∧ earlier.rest = .call operation next ∧
        answer = daemon.world.reply operation (choice.answer operation) ∧
        thread = earlier.resume operation answer (next answer) ∧
        after.world = daemon.world.effect choice operation answer := by
  cases label with
  | receive cmd =>
    cases stepped
    rcases List.mem_append.mp member with old | new
    · exact .inl old
    · exact .inr (.inl ⟨cmd, rfl, List.mem_singleton.mp new⟩)
  | advance index choice =>
    obtain ⟨earlier, operation, next, answer, found, waiting, answered, rfl⟩ := advance_cases stepped
    rcases List.mem_or_eq_of_mem_set member with old | rfl
    · exact .inl old
    · exact .inr (.inr ⟨index, choice, earlier, operation, next, answer, rfl,
        found, waiting, answered, rfl, rfl⟩)
  | print container text =>
    cases stepped
    exact .inl member
  | close session =>
    cases stepped
    exact .inl member
  | forward index =>
    obtain ⟨_, _, _, _, -, -, -, rfl⟩ := forward_cases stepped
    exact .inl member
  | finish index =>
    obtain ⟨_, -, -, rfl⟩ := finish_cases stepped
    exact .inl member

/-- Every task keeps to the order of its command. -/
def Conducted (daemon : Daemon) : Prop := ∀ thread ∈ daemon.threads, thread.Conducts Conduct

theorem Conducted.start (tracked : HashMap String String) : (Daemon.start tracked).Conducted :=
  fun _ member => nomatch member

theorem Conducted.step (conducted : daemon.Conducted)
    (stepped : daemon.Steps dispatcher codec label after) : after.Conducted := by
  intro thread member
  rcases step_threads stepped member with old | ⟨cmd, -, rfl⟩ |
    ⟨_, _, earlier, operation, next, answer, -, found, waiting, -, rfl, -⟩
  · exact conducted thread old
  · exact dispatcher.handle_conduct codec cmd
  · exact (conducted earlier (List.mem_of_getElem? found)).resume waiting answer

theorem Conducted.run (run : Transition.Run (Steps dispatcher codec) (Daemon.start tracked) labels daemon) :
    daemon.Conducted :=
  run.invariant (fun conducted stepped => conducted.step stepped) (.start tracked)

end Daemon

/-! ## Runs on a quiet host -/

/-- Every runtime call succeeds and nothing else is removed; there are no files. -/
def willing : Choice where
  answer
    | .fs operation => by cases operation <;> first | exact false | exact .error ⟨true, "no such file"⟩
    | .runtime .listManaged => .ok []
    | .runtime (.create _) => .ok "new"
    | .runtime (.inspect _) => .ok true
    | .runtime (.stats _) => .ok Dispatcher.noStats
    | .runtime (.attach _) => .ok 0
    | .runtime (.pull _) | .runtime (.start _) | .runtime (.stop _ _) | .runtime (.kill _)
    | .runtime (.remove _) | .createDatabase _ _ _ | .deleteDatabase _ _ | .writeStdin _ _ => .ok ()
    | .now => 0
    | .trackedGet _ | .consolesGet _ => none
    | .trackedSnapshot => []
    | .consolesContains _ => false
    | .trackedInsert _ _ | .trackedRemove _ | .trackedReconcile _ | .consolesInsert _ _
    | .consolesRemove _ | .spawnPump _ _ | .emit _ | .lockStdin _ | .unlockStdin _ => ()
  gone := []
  written := 0

/-- A task's next call on such a host. -/
def Label.call (thread : Nat) : Label := .advance thread willing

def lifecycleCommand (action : Action) (serverId : String) (containerId : Option String) :
    CommandPayload where
  commandId := "cmd-1"
  action := action
  serverId := serverId
  containerId := containerId

def Daemon.exec (labels : List Label) (daemon : Daemon) : Option Daemon :=
  labels.foldlM (Daemon.step Dispatcher.defaultDispatcher Dispatcher.unusedCodec) daemon

/-- The host on which server `s1` is tracked to container `c1`. -/
def Daemon.tracking : Daemon := .start ((∅ : HashMap String String).insert "s1" "c1")

end SkyDaemon.Agent
