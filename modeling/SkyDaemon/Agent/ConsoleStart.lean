import SkyDaemon.Agent.Alone
import SkyDaemon.Agent.ConsolePhase

/-! Which console a server has after a start, when commands and pumps take turns. A start
attaches only if the map has no entry for the server, and the entry of an earlier session
stays until its pump has noticed the end of the connection. -/
namespace SkyDaemon.Agent
open Protocol Program Transition

/-- What a session shows to the rest of the daemon: its container, and whether it is open. -/
def AttachSession.shown (session : AttachSession) : String × Bool := (session.container, session.isOpen)

namespace World

/-- The consoles of the server are served by this session, which is open on the container. -/
structure Serves (world : World) (serverId containerId : String) (session : SessionId) : Prop where
  entry : world.consoles.lookup serverId = some session
  attached : (world.sessions[session]?).map AttachSession.shown = some (containerId, true)

/-- The registered session of the server is on another container, or its connection has
ended and its pump has not yet unregistered it. -/
def Stale (world : World) (serverId containerId : String) : Prop :=
  ∃ session attached, world.consoles.lookup serverId = some session ∧
    world.sessions[session]? = some attached ∧ ⟨serverId, session⟩ ∈ world.pumps ∧
    (attached.container ≠ containerId ∨ attached.isOpen = false)

/-- Every entry has a session, and a pump that will unregister it. -/
def Registered (world : World) : Prop :=
  ∀ serverId session, world.consoles.lookup serverId = some session →
    session < world.sessions.length ∧ ⟨serverId, session⟩ ∈ world.pumps

structure SameConsoles (before after : World) : Prop where
  consoles : after.consoles = before.consoles
  pumps : after.pumps = before.pumps
  sessions : after.sessions.map AttachSession.shown = before.sessions.map AttachSession.shown

variable {before mid after : World}

theorem SameConsoles.refl (world : World) : world.SameConsoles world := ⟨rfl, rfl, rfl⟩

theorem SameConsoles.trans (first : before.SameConsoles mid) (second : mid.SameConsoles after) :
    before.SameConsoles after :=
  ⟨second.consoles.trans first.consoles, second.pumps.trans first.pumps,
    second.sessions.trans first.sessions⟩

theorem SameConsoles.length (same : before.SameConsoles after) :
    after.sessions.length = before.sessions.length := by
  simpa using congrArg List.length same.sessions

theorem SameConsoles.shown (same : before.SameConsoles after) (session : SessionId) :
    (after.sessions[session]?).map AttachSession.shown =
      (before.sessions[session]?).map AttachSession.shown := by
  rw [← List.getElem?_map, same.sessions, List.getElem?_map]

theorem SameConsoles.registered (same : before.SameConsoles after) (registered : before.Registered) :
    after.Registered := by
  intro serverId session entry
  rw [same.consoles] at entry
  rw [same.length, same.pumps]
  exact registered serverId session entry

theorem SameConsoles.serves_iff (same : before.SameConsoles after) :
    after.Serves serverId containerId session ↔ before.Serves serverId containerId session := by
  constructor
  · rintro ⟨entry, attached⟩
    exact ⟨same.consoles ▸ entry, same.shown session ▸ attached⟩
  · rintro ⟨entry, attached⟩
    exact ⟨same.consoles.symm ▸ entry, (same.shown session).trans attached⟩

/-- A registered session serves its server, or is stale. -/
theorem Registered.serves_iff {world : World} (registered : world.Registered)
    (entry : world.consoles.lookup serverId = some session) :
    world.Serves serverId containerId session ↔ ¬world.Stale serverId containerId := by
  obtain ⟨inside, pumped⟩ := registered serverId session entry
  have known := List.getElem?_eq_getElem inside
  constructor
  · rintro ⟨-, attached⟩ ⟨_, _, entry', known', -, wrong⟩
    cases Option.some.inj (entry.symm.trans entry')
    rw [known'] at attached
    obtain ⟨own, isOpen⟩ := Prod.mk.inj (Option.some.inj attached)
    rcases wrong with other | closed
    · exact other own
    · exact Bool.false_ne_true (closed.symm.trans isOpen)
  · intro fresh
    refine ⟨entry, ?_⟩
    rw [known, Option.map_some, AttachSession.shown]
    by_contra wrong
    refine fresh ⟨session, _, entry, known, pumped, ?_⟩
    by_contra right
    simp only [not_or, not_not, Bool.not_eq_false] at right
    exact wrong (by rw [right.1, right.2])

theorem shown_modify {f : AttachSession → AttachSession} (sessions : List AttachSession)
    (target : SessionId) (keeps : ∀ s, (f s).shown = s.shown) :
    (sessions.modify target f).map AttachSession.shown = sessions.map AttachSession.shown := by
  apply List.ext_getElem?
  intro session
  rw [List.getElem?_map, List.getElem?_map, List.getElem?_modify]
  by_cases here : target = session
  · cases sessions[session]? <;> simp [here, keeps]
  · simp [here]

theorem sameConsoles_effect {operation : Call} (leaves : operation.LeavesConsoles) (world : World)
    (choice : Choice) (answer : operation.Response) :
    world.SameConsoles (world.effect choice operation answer) := by
  refine ⟨leaves.consoles world choice answer, leaves.pumps world choice answer, ?_⟩
  change (world.sessionsAfter choice operation answer).map _ = _
  unfold sessionsAfter
  split
  · exact leaves.elim
  · exact shown_modify _ _ fun _ => rfl
  · exact shown_modify _ _ fun _ => rfl
  · exact shown_modify _ _ fun _ => rfl
  · exact shown_modify _ _ fun _ => rfl
  · rfl

end World

/-! ## One command -/

/-- A later point of the same course, with the consoles as they were. -/
structure Follows (before after : WorldCourse) : Prop where
  same : before.world.SameConsoles after.world
  coming : ∃ k, ∀ n, after.coming n = before.coming (n + k)

section Follows
variable {before course : WorldCourse}

theorem Follows.refl (course : WorldCourse) : Follows course course := ⟨.refl _, 0, fun _ => rfl⟩

theorem Follows.after (follows : Follows before course) (operation : Call)
    (kept : course.world.SameConsoles (course.after World.react operation).world) :
    Follows before (course.after World.react operation) := by
  obtain ⟨k, coming⟩ := follows.coming
  refine ⟨follows.same.trans kept, k + 1, fun n => ?_⟩
  exact (coming (n + 1)).trans (congrArg before.coming (by omega))

theorem Follows.leaves (follows : Follows before course) (operation : Call)
    (leaves : operation.LeavesConsoles) : Follows before (course.after World.react operation) :=
  follows.after operation (World.sameConsoles_effect leaves _ _ _)

theorem follows_of_leaves {program : Task α} (all : program.All Call.LeavesConsoles) (course : WorldCourse) :
    Follows course (program.execute World.react course).2 :=
  execute_keeps all (fun _ _ leaves follows => follows.leaves _ leaves) (.refl course)

end Follows

/-- The container that a command is about. -/
def Resolves (world : World) (cmd : CommandPayload) (containerId : String) : Prop :=
  (cmd.containerId.or (world.tracked.lookup cmd.serverId)) = some containerId

namespace Dispatcher

theorem containerFor_resolves {course after : WorldCourse}
    (ran : (containerFor cmd).execute World.react course = (.ok containerId, after)) :
    Resolves course.world cmd containerId := by
  unfold containerFor at ran
  unfold Resolves
  cases named : cmd.containerId with
  | some id =>
    rw [named] at ran
    cases ran
    rfl
  | none =>
    rw [named, execute_perform_bind] at ran
    change (required _ (course.world.tracked.lookup cmd.serverId) : Task String).execute _ _ = _ at ran
    rw [Option.none_or]
    cases known : course.world.tracked.lookup cmd.serverId with
    | some id =>
      rw [known] at ran
      cases ran
      rfl
    | none =>
      rw [known] at ran
      cases ran

/-- What a start does to the consoles. -/
inductive Starts (cmd : CommandPayload) (course : WorldCourse) (after : World) : Except String Unit → Prop where
  | failed (same : course.world.SameConsoles after) : Starts cmd course after (.error message)
  | skipped (resolved : Resolves course.world cmd containerId)
      (entry : course.world.consoles.lookup cmd.serverId = some session)
      (same : course.world.SameConsoles after) : Starts cmd course after (.ok ())
  | refused (resolved : Resolves course.world cmd containerId)
      (refused : (course.coming n).answer (.runtime (.attach containerId)) = .error message)
      (same : course.world.SameConsoles after) : Starts cmd course after (.ok ())
  | attached (resolved : Resolves course.world cmd containerId)
      (vacant : course.world.consoles.lookup cmd.serverId = none)
      (consoles : after.consoles = course.world.consoles.insert cmd.serverId course.world.sessions.length)
      (pumps : after.pumps = course.world.pumps ++ [⟨cmd.serverId, course.world.sessions.length⟩])
      (sessions : after.sessions.map AttachSession.shown =
        course.world.sessions.map AttachSession.shown ++ [(containerId, true)]) :
      Starts cmd course after (.ok ())

theorem startConsoleStream_cases {course mid : WorldCourse} (follows : Follows course mid)
    (resolved : Resolves course.world cmd containerId) :
    ∃ result after, (startConsoleStream cmd.serverId containerId).execute World.react mid = (result, after) ∧
      Starts cmd course after.world result := by
  let checked := mid.after World.react (.consolesContains cmd.serverId)
  have still : Follows course checked := follows.after _ (.refl _)
  have present : mid.answer World.react (.consolesContains cmd.serverId) =
      (course.world.consoles.lookup cmd.serverId).isSome := by
    rw [← follows.same.consoles]
    rfl
  rw [startConsoleStream, execute_perform_bind, present]
  cases entry : course.world.consoles.lookup cmd.serverId with
  | some session => exact ⟨_, _, rfl, .skipped resolved entry still.same⟩
  | none =>
    rw [Option.isSome_none, if_neg Bool.false_ne_true, runtime, execute_perform_bind]
    obtain ⟨k, coming⟩ := still.coming
    have answered : checked.answer World.react (.runtime (.attach containerId)) =
        ((course.coming k).answer (.runtime (.attach containerId))).map
          fun _ => course.world.sessions.length := by
      rw [← Nat.zero_add k, ← coming 0, ← still.same.length]
      rfl
    have left : (checked.after World.react (.runtime (.attach containerId))).world =
        checked.world.effect (checked.coming 0) (.runtime (.attach containerId))
          (checked.answer World.react (.runtime (.attach containerId))) := rfl
    rw [answered] at left ⊢
    cases attach : (course.coming k).answer (.runtime (.attach containerId)) with
    | error message =>
      rw [attach] at left
      refine ⟨_, _, rfl, .refused resolved attach ?_⟩
      change World.SameConsoles _ (checked.after World.react (.runtime (.attach containerId))).world
      rw [left]
      exact still.same.trans (.refl _)
    | ok session =>
      rw [attach] at left
      refine ⟨_, _, rfl, .attached resolved entry ?_ ?_ ?_⟩
      · change (checked.after World.react (.runtime (.attach containerId))).world.consoles.insert _ _ = _
        rw [left, ← still.same.consoles]
        rfl
      · change (checked.after World.react (.runtime (.attach containerId))).world.pumps ++ _ = _
        rw [left, ← still.same.pumps]
        rfl
      · change (checked.after World.react (.runtime (.attach containerId))).world.sessions.map _ = _
        rw [left, ← still.same.sessions]
        exact List.map_append

theorem start_cases (cmd : CommandPayload) (course : WorldCourse) :
    ∃ result after, (start cmd).execute World.react course = (result, after) ∧
      Starts cmd course after.world result := by
  have first := follows_of_leaves (containerFor_all cmd trivial) course
  cases found : (containerFor cmd).execute World.react course with
  | mk result mid =>
    rw [found] at first
    cases result with
    | error message =>
      refine ⟨.error message, mid, ?_, .failed first.same⟩
      rw [start, execute_bind, Effect.bind_run_error found]
    | ok containerId =>
      have resolved := containerFor_resolves found
      have started := first.leaves (.runtime (.start containerId)) trivial
      rw [start, execute_bind_ok found, runtime, execute_perform_bind]
      cases mid.answer World.react (.runtime (.start containerId)) with
      | error message => exact ⟨_, _, rfl, .failed started.same⟩
      | ok _ =>
        have tracked := started.leaves (.trackedInsert cmd.serverId containerId) trivial
        exact startConsoleStream_cases
          (tracked.leaves (.emit ⟨cmd.serverId, .stateChanged, "running"⟩) trivial) resolved

/-- A removal drops the server's entry, or changes nothing. -/
theorem remove_cases (cmd : CommandPayload) (course : WorldCourse) :
    ∃ result after, (remove cmd).execute World.react course = (result, after) ∧
      (course.world.SameConsoles after.world ∨
        course.world.SameConsoles { after.world with consoles := course.world.consoles } ∧
          after.world.consoles = course.world.consoles.erase cmd.serverId) := by
  have first := follows_of_leaves (containerFor_all cmd trivial) course
  cases found : (containerFor cmd).execute World.react course with
  | mk result mid =>
    rw [found] at first
    cases result with
    | error message =>
      refine ⟨.error message, mid, ?_, .inl first.same⟩
      rw [remove, execute_bind, Effect.bind_run_error found]
    | ok containerId =>
      have removed := first.leaves (.runtime (.remove containerId)) trivial
      rw [remove, execute_bind_ok found, runtime, execute_perform_bind]
      cases mid.answer World.react (.runtime (.remove containerId)) with
      | error message => exact ⟨_, _, rfl, .inl removed.same⟩
      | ok _ =>
        have same := (removed.leaves (.trackedRemove cmd.serverId) trivial).same
        refine ⟨_, _, rfl, .inr ⟨⟨rfl, same.pumps, same.sessions⟩, ?_⟩⟩
        exact congrArg (fun consoles : HashMap String SessionId => consoles.erase cmd.serverId) same.consoles

theorem handleInner_leavesConsoles (dispatcher : Dispatcher) (codec : Base64) (cmd : CommandPayload)
    (other : cmd.action ≠ .start) (other' : cmd.action ≠ .remove) :
    (dispatcher.handleInner codec cmd).All Call.LeavesConsoles := by
  refine (dispatcher.handleInner_calls codec cmd).mono fun call may => ?_
  cases call with
  | runtime operation => cases operation <;> simp_all [MayCall, Call.LeavesConsoles]
  | _ => simp_all [MayCall, Call.LeavesConsoles]

end Dispatcher

/-! ## Turns -/

inductive Turn where
  /-- A command runs to its ack. -/
  | command (cmd : CommandPayload) (choices : Nat → Choice)
  | print (container text : String)
  | close (session : SessionId)
  | forward (pump : Nat)
  | finish (pump : Nat)

/-- The actions that create, run and remove a container. -/
def isLifecycle : Action → Bool
  | .create | .start | .stop | .kill | .remove => true
  | _ => false

namespace World
variable (dispatcher : Dispatcher) (codec : Base64)

def turn (world : World) : Turn → Option World
  | .command cmd choices =>
      if isLifecycle cmd.action then
        some ((dispatcher.handle codec cmd).execute World.react (.start world choices)).2.world
      else none
  | .print container text => some (world.print container text)
  | .close session => some (world.close session)
  | .forward index => (world.pumps[index]?).bind world.forward
  | .finish index => (world.pumps[index]?).bind (world.finish index)

def Turns (world : World) (turn : Turn) (after : World) : Prop :=
  world.turn dispatcher codec turn = some after

variable {dispatcher codec} {world after : World}

theorem Registered.command (registered : world.Registered) (cmd : CommandPayload) (choices : Nat → Choice) :
    ((dispatcher.handle codec cmd).execute World.react (.start world choices)).2.world.Registered := by
  rw [dispatcher.handle_run codec cmd]
  by_cases isStart : cmd.action = .start
  · obtain ⟨result, after, ran, starts⟩ := Dispatcher.start_cases cmd (.start world choices)
    simp only [Dispatcher.handleInner, isStart, execute_bind_pure, ran]
    cases starts with
    | failed same => exact same.registered registered
    | skipped _ _ same => exact same.registered registered
    | refused _ _ same => exact same.registered registered
    | attached _ vacant consoles pumps sessions =>
      have longer : after.world.sessions.length = world.sessions.length + 1 := by
        simpa using congrArg List.length sessions
      intro serverId session entry
      rw [consoles, HashMap.lookup_insert_eq] at entry
      rw [longer, pumps, List.mem_append]
      split at entry
      · rename_i own
        subst own
        cases entry
        exact ⟨Nat.lt_succ_self _, .inr (List.mem_singleton_self _)⟩
      · obtain ⟨inside, pumped⟩ := registered serverId session entry
        exact ⟨Nat.lt_succ_of_lt inside, .inl pumped⟩
  by_cases isRemove : cmd.action = .remove
  · obtain ⟨result, after, ran, same | ⟨same, consoles⟩⟩ := Dispatcher.remove_cases cmd (.start world choices)
    · simp only [Dispatcher.handleInner, isRemove, execute_bind_pure, ran]
      exact same.registered registered
    · simp only [Dispatcher.handleInner, isRemove, execute_bind_pure, ran]
      intro serverId session entry
      rw [consoles, HashMap.lookup_erase_eq] at entry
      split at entry
      · cases entry
      · exact same.registered registered serverId session entry
  · exact (follows_of_leaves (dispatcher.handleInner_leavesConsoles codec cmd isStart isRemove) _).same.registered
      registered

theorem Registered.turn {next : Turn} (registered : world.Registered)
    (taken : world.Turns dispatcher codec next after) : after.Registered := by
  cases next with
  | command cmd choices =>
    simp only [Turns, World.turn] at taken
    split at taken
    · cases taken
      exact registered.command cmd choices
    · contradiction
  | print container text =>
    cases taken
    exact registered
  | close session =>
    cases taken
    intro serverId entry found
    obtain ⟨inside, pumped⟩ := registered serverId entry found
    exact ⟨by simpa [close] using inside, pumped⟩
  | forward index =>
    obtain ⟨pump, -, forwarded⟩ := Option.bind_eq_some_iff.mp taken
    obtain ⟨line, -, rfl⟩ := Option.map_eq_some_iff.mp forwarded
    exact registered
  | finish index =>
    obtain ⟨pump, found, finished⟩ := Option.bind_eq_some_iff.mp taken
    unfold finish at finished
    split at finished
    · contradiction
    · cases finished
      intro serverId session entry
      rw [HashMap.lookup_erase_eq] at entry
      split at entry
      · contradiction
      · rename_i other
        obtain ⟨inside, pumped⟩ := registered serverId session entry
        obtain ⟨position, known⟩ := List.mem_iff_getElem?.mp pumped
        refine ⟨inside, List.mem_eraseIdx_iff_getElem?.mpr ⟨position, ?_, known⟩⟩
        rintro rfl
        cases Option.some.inj (known.symm.trans found)
        exact other rfl

theorem Registered.run {startup : HashMap String String}
    (reached : Run (Turns dispatcher codec) (Daemon.start startup).world turns world) : world.Registered :=
  reached.invariant (fun registered taken => registered.turn taken) fun _ _ entry => nomatch entry

/-! Turns are runs of the daemon. -/

theorem lifecycle_waitless (cmd : CommandPayload) (lifecycle : isLifecycle cmd.action = true) :
    (dispatcher.handle codec cmd).All Call.Waitless := by
  refine (dispatcher.handle_calls codec cmd).mono fun call may => ?_
  cases call with
  | lockStdin session =>
    rw [show cmd.action = .consoleInput from may] at lifecycle
    contradiction
  | _ => trivial

theorem daemon_run_of_turn {next : Turn} (taken : world.Turns dispatcher codec next after)
    (threads : List CommandThread) :
    ∃ labels threads', Run (Daemon.Steps dispatcher codec) ⟨world, threads⟩ labels ⟨after, threads'⟩ := by
  cases next with
  | command cmd choices =>
    simp only [Turns, World.turn] at taken
    split at taken
    · rename_i lifecycle
      cases taken
      let thread : CommandThread := .spawn (dispatcher.handle codec) cmd
      let daemon : Daemon := ⟨world, threads ++ [thread]⟩
      have found : daemon.threads[threads.length]? = some thread := List.getElem?_concat_length
      obtain ⟨result, after, labels, ran, run⟩ :=
        Daemon.run_of_execute dispatcher codec choices found (lifecycle_waitless cmd lifecycle)
      have same : (dispatcher.handle codec cmd).execute World.react (.start world choices) = (result, after) := ran
      rw [same]
      exact ⟨.receive cmd :: labels, _, .next rfl run⟩
    · contradiction
  | print container text =>
    cases taken
    exact ⟨[.print container text], threads, .single rfl⟩
  | close session =>
    cases taken
    exact ⟨[.close session], threads, .single rfl⟩
  | forward index =>
    refine ⟨[.forward index], threads, .single ?_⟩
    obtain ⟨pump, found, forwarded⟩ := Option.bind_eq_some_iff.mp taken
    simp only [Daemon.Steps, Daemon.step, found, Option.bind_some, forwarded, Option.map_some]
  | finish index =>
    refine ⟨[.finish index], threads, .single ?_⟩
    obtain ⟨pump, found, finished⟩ := Option.bind_eq_some_iff.mp taken
    simp only [Daemon.Steps, Daemon.step, found, Option.bind_some, finished, Option.map_some]

theorem daemon_run_of_turns (run : Run (Turns dispatcher codec) world turns after)
    (threads : List CommandThread) :
    ∃ labels threads', Run (Daemon.Steps dispatcher codec) ⟨world, threads⟩ labels ⟨after, threads'⟩ := by
  induction run generalizing threads with
  | refl => exact ⟨[], threads, .refl _⟩
  | next taken _ ih =>
    obtain ⟨labels, mid, first⟩ := daemon_run_of_turn taken threads
    obtain ⟨rest, threads', second⟩ := ih mid
    exact ⟨labels ++ rest, threads', first.trans second⟩

/-! ## Input -/

variable (dispatcher codec) in
/-- Input for the server whose writes succeed is acked and goes to this session alone. -/
def InputReaches (world : World) (serverId : String) (session : SessionId) : Prop :=
  ∀ cmd text choices, cmd.action = .consoleInput → cmd.serverId = serverId → cmd.input = some text →
    (∀ n target content, (choices n : Choice).answer (.writeStdin target content) = .ok ()) →
    ∃ ack after, (dispatcher.handle codec cmd).execute World.react (.start world choices) = (.ok ack, after) ∧
      ack.ok = true ∧ after.world.sessions = world.sessions.modify session fun s =>
        { s with locked := false, stdin := s.stdin ++ (Text.bytes text ++ Text.bytes "\n") }

theorem inputReaches_of_entry (entry : world.consoles.lookup serverId = some session) :
    world.InputReaches dispatcher codec serverId session := by
  rintro cmd text choices action rfl input writes
  rw [dispatcher.handle_run codec cmd]
  simp only [Dispatcher.handleInner, action, execute_bind_pure]
  let course : WorldCourse := .start world choices
  have found : course.answer World.react (.consolesGet cmd.serverId) = some session := entry
  let locked := (course.after World.react (.consolesGet cmd.serverId)).after World.react (.lockStdin session)
  have first : locked.answer World.react (.writeStdin session (Text.bytes text)) = .ok () := writes _ _ _
  let half := locked.after World.react (.writeStdin session (Text.bytes text))
  have second : half.answer World.react (.writeStdin session (Text.bytes "\n")) = .ok () := writes _ _ _
  let whole := half.after World.react (.writeStdin session (Text.bytes "\n"))
  have ran : (Dispatcher.consoleInput cmd).execute World.react course =
      (.ok (), whole.after World.react (.unlockStdin session)) := by
    rw [Dispatcher.consoleInput, input, required_some, done_bind, execute_perform_bind, found, required_some,
      done_bind, Dispatcher.writeConsole, execute_perform_bind, execute_perform_bind, first]
    dsimp only
    rw [execute_perform_bind, execute_perform_bind, second]
    rfl
  rw [ran]
  refine ⟨_, _, rfl, rfl, ?_⟩
  have written (before : WorldCourse) (content : List UInt8)
      (ok : before.answer World.react (.writeStdin session content) = .ok ()) :
      (before.after World.react (.writeStdin session content)).world.sessions =
        before.world.sessions.modify session fun s => { s with stdin := s.stdin ++ content } := by
    change before.world.sessionsAfter _ _ (before.answer World.react _) = _
    rw [ok]
    rfl
  change whole.world.sessions.modify session _ = _
  rw [written half _ second, written locked _ first]
  change (((world.sessions.modify session _).modify session _).modify session _).modify session _ = _
  simp only [List.modify_modify_eq]
  congr 1
  funext s
  simp

/-- After an acked start whose attach succeeds, the server's console is an open session on
the container that was started, and input goes there, exactly when the start did not find
a stale session of the server. The worlds are among those of the interleaved daemon. -/
theorem start_serves_iff {startup : HashMap String String} {turns : List Turn} {choices : Nat → Choice}
    {cmd : CommandPayload} {ack : AckPayload} {after : WorldCourse}
    (reached : Run (Turns dispatcher codec) (Daemon.start startup).world turns world)
    (action : cmd.action = .start)
    (attaches : ∀ n containerId, Resolves world cmd containerId →
      ((choices n).answer (.runtime (.attach containerId))).isOk = true)
    (handled : (dispatcher.handle codec cmd).execute World.react (.start world choices) = (.ok ack, after))
    (ok : ack.ok = true) :
    (∃ labels threads, Run (Daemon.Steps dispatcher codec) (Daemon.start startup) labels ⟨world, threads⟩) ∧
    ∃ containerId, Resolves world cmd containerId ∧
      ((∃ session, after.world.Serves cmd.serverId containerId session ∧
          after.world.InputReaches dispatcher codec cmd.serverId session) ↔
        ¬world.Stale cmd.serverId containerId) := by
  refine ⟨daemon_run_of_turns reached [], ?_⟩
  obtain ⟨result, ended, ran, starts⟩ := Dispatcher.start_cases cmd (.start world choices)
  rw [dispatcher.handle_run codec cmd] at handled
  simp only [Dispatcher.handleInner, action, execute_bind_pure, ran] at handled
  cases handled
  cases starts with
  | failed same => contradiction
  | @refused containerId n message resolved refused same =>
    have accepted := attaches n containerId resolved
    rw [show (choices n).answer (.runtime (.attach containerId)) = _ from refused] at accepted
    contradiction
  | @skipped containerId session resolved entry same =>
    refine ⟨containerId, resolved, ?_⟩
    rw [← (Registered.run reached).serves_iff entry]
    constructor
    · rintro ⟨other, serves, -⟩
      have before := same.serves_iff.mp serves
      cases Option.some.inj (before.entry.symm.trans entry)
      exact before
    · intro serves
      have kept := same.serves_iff.mpr serves
      exact ⟨session, kept, inputReaches_of_entry kept.entry⟩
  | @attached containerId resolved vacant consoles pumps sessions =>
    refine ⟨containerId, resolved, ?_⟩
    have entry : after.world.consoles.lookup cmd.serverId = some world.sessions.length := by
      rw [consoles]
      exact AList.lookup_insert _
    refine iff_of_true ⟨world.sessions.length, ⟨entry, ?_⟩, inputReaches_of_entry entry⟩ ?_
    · rw [← List.getElem?_map, sessions]
      simp
    · rintro ⟨session, attached, known, -⟩
      rw [show world.consoles.lookup cmd.serverId = none from vacant] at known
      contradiction

/-! ## A restart of the same container -/

/-- Server `s1` is started and stopped, and the connection of its console ends. -/
def stoppedTurns : List Turn :=
  [.command (lifecycleCommand .start "s1" none) fun _ => willing,
    .command (lifecycleCommand .stop "s1" none) fun _ => willing, .close 0]

/-- The same, and the pump has noticed. -/
def pumpedTurns : List Turn := stoppedTurns ++ [.finish 0]

def play (turns : List Turn) : Option World :=
  turns.foldlM (World.turn Dispatcher.defaultDispatcher Dispatcher.unusedCodec) Daemon.tracking.world

def stoppedWorld : World := (play stoppedTurns).getD Daemon.tracking.world

def pumpedWorld : World := (play pumpedTurns).getD Daemon.tracking.world

/-- The next start of `s1`. -/
def startAgain (world : World) : Except String AckPayload × WorldCourse :=
  (Dispatcher.defaultDispatcher.handle Dispatcher.unusedCodec (lifecycleCommand .start "s1" none)).execute
    World.react (.start world fun _ => willing)

theorem start_after_pump_serves :
    Run (Turns Dispatcher.defaultDispatcher Dispatcher.unusedCodec) Daemon.tracking.world pumpedTurns pumpedWorld ∧
      ∃ ack after session, startAgain pumpedWorld = (.ok ack, after) ∧ ack.ok = true ∧
        after.world.Serves "s1" "c1" session := by
  have reached : Run (Turns Dispatcher.defaultDispatcher Dispatcher.unusedCodec) Daemon.tracking.world
      pumpedTurns pumpedWorld := .of_foldlM (Option.getD_of_ne_none (by decide +kernel) _).symm
  have vacant : pumpedWorld.consoles.lookup "s1" = none := by decide +kernel
  have tracked : Resolves pumpedWorld (lifecycleCommand .start "s1" none) "c1" := by
    unfold Resolves
    decide +kernel
  have acked := Dispatcher.handle_run Dispatcher.defaultDispatcher Dispatcher.unusedCodec
    (lifecycleCommand .start "s1" none) World.react (.start pumpedWorld fun _ => willing)
  have ok : (Dispatcher.acked (lifecycleCommand .start "s1" none) ((Dispatcher.defaultDispatcher.handleInner
      Dispatcher.unusedCodec (lifecycleCommand .start "s1" none)).execute World.react
        (.start pumpedWorld fun _ => willing)).1).ok = true := by decide +kernel
  obtain ⟨-, containerId, resolved, serves⟩ := start_serves_iff reached rfl (fun _ _ _ => rfl) acked ok
  cases Option.some.inj (tracked.symm.trans resolved)
  obtain ⟨session, served, -⟩ := serves.mpr fun ⟨_, _, entry, _⟩ => nomatch vacant.symm.trans entry
  exact ⟨reached, _, _, session, acked, ok, served⟩

/-- The start is acked while the console of `s1` is the session whose connection has ended. -/
theorem start_before_pump_skips :
    Run (Turns Dispatcher.defaultDispatcher Dispatcher.unusedCodec) Daemon.tracking.world stoppedTurns
        stoppedWorld ∧
      (startAgain stoppedWorld).1.map AckPayload.ok = .ok true ∧
      Resolves stoppedWorld (lifecycleCommand .start "s1" none) "c1" ∧
      (startAgain stoppedWorld).2.world.sessions = [⟨"c1", false, false, []⟩] ∧
      ¬∃ session, (startAgain stoppedWorld).2.world.Serves "s1" "c1" session := by
  have entry : (startAgain stoppedWorld).2.world.consoles.lookup "s1" = some 0 := by decide +kernel
  have sessions : (startAgain stoppedWorld).2.world.sessions = [⟨"c1", false, false, []⟩] := by decide +kernel
  refine ⟨.of_foldlM (Option.getD_of_ne_none (by decide +kernel) _).symm, by decide +kernel, ?_, sessions, ?_⟩
  · unfold Resolves
    decide +kernel
  · rintro ⟨session, served⟩
    have attached := served.attached
    cases Option.some.inj (entry.symm.trans served.entry)
    rw [sessions] at attached
    cases attached

end World

end SkyDaemon.Agent
