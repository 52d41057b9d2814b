import SkyDaemon.Agent.Concurrent

/-! The life of a server's console while commands start the server side by side. The
abstract console is closed, or in the hands of one start, or pumped; the daemon keeps
to it as long as no start passes the presence check while another is attaching. -/
namespace SkyDaemon.Agent
open Protocol Program Transition

/-- The console of one server, as it should be. -/
inductive ConsolePhase where
  | closed
  /-- The thread found no console and is attaching. -/
  | checking (thread : Nat)
  | attached (thread : Nat) (containerId : String) (session : SessionId)
  | installed (thread : Nat) (session : SessionId)
  | pumping (session : SessionId)
  deriving DecidableEq, Repr

namespace ConsolePhase

/-- A console is opened in order, by one thread, and closed by its pump. -/
inductive Moves : ConsolePhase → ConsolePhase → Prop where
  | stay (phase) : Moves phase phase
  | check (thread) : Moves .closed (.checking thread)
  | giveUp (thread) : Moves (.checking thread) .closed
  | attach (thread containerId session) : Moves (.checking thread) (.attached thread containerId session)
  | install (thread containerId session) :
      Moves (.attached thread containerId session) (.installed thread session)
  | pump (thread session) : Moves (.installed thread session) (.pumping session)
  | finish (session) : Moves (.pumping session) .closed

/-- The thread that is opening the console. -/
def thread : ConsolePhase → Option Nat
  | .checking thread | .attached thread _ _ | .installed thread _ => some thread
  | _ => none

/-- The session that may be open. -/
def session : ConsolePhase → Option SessionId
  | .attached _ _ session | .installed _ session | .pumping session => some session
  | _ => none

/-- The entry of the map. -/
def entry : ConsolePhase → Option SessionId
  | .installed _ session | .pumping session => some session
  | _ => none

def pumps (serverId : String) : ConsolePhase → List PumpTask
  | .pumping session => [⟨serverId, session⟩]
  | _ => []

/-- How far each thread has come. -/
def stage (serverId : String) (index : Nat) : ConsolePhase → Stage
  | .checking thread => if index = thread then .checked serverId else .idle
  | .attached thread containerId session =>
      if index = thread then .attached containerId session else .idle
  | .installed thread session => if index = thread then .installed serverId session else .idle
  | _ => .idle

section Stages
variable {phase : ConsolePhase} {serverId other containerId : String} {index : Nat} {held : SessionId}

theorem stage_checked (checked : phase.stage serverId index = .checked other) :
    phase = .checking index := by
  cases phase <;> grind [stage]

theorem stage_attached (attached : phase.stage serverId index = .attached containerId held) :
    phase = .attached index containerId held := by
  cases phase <;> grind [stage]

theorem stage_installed (installed : phase.stage serverId index = .installed other held) :
    phase = .installed index held ∧ other = serverId := by
  cases phase <;> grind [stage]

theorem stage_other (other : phase.thread ≠ some index) : phase.stage serverId index = .idle := by
  cases phase <;> grind [stage, thread]

end Stages

end ConsolePhase

section LeavesConsoles
variable {operation : Call} (leaves : operation.LeavesConsoles) (world : World) (choice : Choice)
  (answer : operation.Response)
include leaves

theorem Call.LeavesConsoles.consoles : (world.effect choice operation answer).consoles = world.consoles := by
  change world.consolesAfter operation = _
  cases operation <;> first | rfl | exact leaves.elim

theorem Call.LeavesConsoles.pumps : (world.effect choice operation answer).pumps = world.pumps := by
  change world.pumpsAfter operation = _
  cases operation <;> first | rfl | exact leaves.elim

theorem Call.LeavesConsoles.stage : Stage.after ⟨operation, answer⟩ = .idle := by
  cases operation with
  | runtime call => cases call <;> first | rfl | exact leaves.elim
  | _ => first | rfl | exact leaves.elim

theorem Call.LeavesConsoles.opened {session : SessionId}
    (found : (world.effect choice operation answer).sessions[session]? = some s) (isOpen : s.isOpen = true) :
    ∃ old, world.sessions[session]? = some old ∧ old.isOpen = true := by
  have modified {f : AttachSession → AttachSession} {target : SessionId}
      (found : (world.sessions.modify target f)[session]? = some s) (same : ∀ s, (f s).isOpen = s.isOpen) :
      ∃ old, world.sessions[session]? = some old ∧ old.isOpen = true := by
    rw [List.getElem?_modify] at found
    obtain ⟨old, known, rfl⟩ := Option.map_eq_some_iff.mp found
    refine ⟨old, known, ?_⟩
    split at isOpen
    · rwa [same] at isOpen
    · exact isOpen
  change (world.sessionsAfter choice operation answer)[session]? = some s at found
  unfold World.sessionsAfter at found
  split at found
  · exact leaves.elim
  all_goals first
    | exact modified found fun _ => rfl
    | exact ⟨s, found, isOpen⟩

end LeavesConsoles

namespace Daemon
variable {dispatcher : Dispatcher} {codec : Base64} {daemon after : Daemon} {serverId : String}
  {phase : ConsolePhase}

/-- The daemon's state shows the phase. -/
structure Shows (serverId : String) (daemon : Daemon) (phase : ConsolePhase) : Prop where
  commands : ∀ thread ∈ daemon.threads,
    thread.origin.action = .start ∧ thread.origin.serverId = serverId
  present : ∀ index, phase.thread = some index → index < daemon.threads.length
  stages : ∀ (index : Nat) thread, daemon.threads[index]? = some thread →
    stage thread.history = phase.stage serverId index
  entry : daemon.world.consoles.lookup serverId = phase.entry
  pumps : daemon.world.pumps = phase.pumps serverId
  opened : ∀ (session : SessionId) s, daemon.world.sessions[session]? = some s → s.isOpen = true →
    phase.session = some session

/-- The server whose presence check a step passes. -/
def passing (daemon : Daemon) : Label → Option String
  | .advance index _ => (daemon.threads[index]?).bind fun thread =>
      match thread.rest with
      | .call (.consolesContains serverId) _ =>
          if (daemon.world.consoles.lookup serverId).isSome then none else some serverId
      | _ => none
  | _ => none

/-- The start has passed the check and not yet installed its session. -/
def pending (serverId : String) (thread : CommandThread) : Bool :=
  thread.origin.serverId == serverId &&
    match stage thread.history with
    | .checked _ | .attached _ _ => true
    | _ => false

/-- A start passes the presence check only while no other is between its own check
and the installation of its session. -/
def checksAlone (daemon : Daemon) (label : Label) : Bool :=
  (daemon.passing label).all fun serverId => daemon.threads.all fun thread => !pending serverId thread

/-- Only starts of the server arrive. -/
def startsOnly (serverId : String) : Label → Bool
  | .receive cmd => cmd.action == .start && cmd.serverId == serverId
  | _ => true

abbrev SoleSteps (dispatcher : Dispatcher) (codec : Base64) (serverId : String) :
    Daemon → Label → Daemon → Prop :=
  Guarded (Steps dispatcher codec) fun daemon label =>
    (startsOnly serverId label && daemon.checksAlone label) = true

theorem Shows.start (serverId : String) (tracked : HashMap String String) :
    (Daemon.start tracked).Shows serverId .closed where
  commands := fun _ member => nomatch member
  present := nofun
  stages := fun _ _ found => nomatch found
  entry := rfl
  pumps := rfl
  opened := fun _ _ found => nomatch found

/-- What is left to show when one thread has made a call. -/
theorem Shows.advanced {next : ConsolePhase} {operation : Call} {answer : operation.Response}
    (shows' : daemon.Shows serverId phase) (found : daemon.threads[index]? = some thread)
    (thread' : next.thread = none ∨ next.thread = phase.thread ∨ next.thread = some index)
    (own : next.stage serverId index = .after ⟨operation, answer⟩)
    (others : ∀ other ≠ index, next.stage serverId other = phase.stage serverId other)
    (entry : (daemon.world.effect choice operation answer).consoles.lookup serverId = next.entry)
    (pumps : (daemon.world.effect choice operation answer).pumps = next.pumps serverId)
    (opened : ∀ (session : SessionId) s,
      (daemon.world.effect choice operation answer).sessions[session]? = some s → s.isOpen = true →
        next.session = some session) :
    Shows serverId ⟨daemon.world.effect choice operation answer,
      daemon.threads.set index (thread.resume operation answer rest)⟩ next where
  commands := by
    intro other member
    rcases List.mem_or_eq_of_mem_set member with old | rfl
    · exact shows'.commands other old
    · exact shows'.commands thread (List.mem_of_getElem? found)
  present := by
    intro opening same
    rw [List.length_set]
    rcases thread' with none | old | now
    · rw [none] at same
      contradiction
    · exact shows'.present opening (old ▸ same)
    · cases now.symm.trans same
      exact (List.getElem?_eq_some_iff.mp found).1
  stages := by
    intro other t known
    rw [List.getElem?_set] at known
    split at known
    · rename_i same
      subst other
      split at known
      · cases known
        rw [own, Thread.resume, stage_append]
      · contradiction
    · rename_i different
      rw [shows'.stages other t known, others other (Ne.symm different)]
  entry := entry
  pumps := pumps
  opened := opened

theorem Shows.leaves {operation : Call} {answer : operation.Response}
    {rest : operation.Response → Task AckPayload}
    (shows' : daemon.Shows serverId phase) (conducted : daemon.Conducted)
    (found : daemon.threads[index]? = some thread) (waiting : thread.rest = .call operation rest)
    (leaves : operation.LeavesConsoles) :
    ∃ next, phase.Moves next ∧ Shows serverId ⟨daemon.world.effect choice operation answer,
      daemon.threads.set index (thread.resume operation answer (rest answer))⟩ next := by
  have continues := ((conducted thread (List.mem_of_getElem? found)).next waiting).continues
  have own := shows'.stages index thread found
  have entry : (daemon.world.effect choice operation answer).consoles.lookup serverId = phase.entry := by
    rw [leaves.consoles]
    exact shows'.entry
  have pumps := (leaves.pumps daemon.world choice answer).trans shows'.pumps
  have opened : ∀ (session : SessionId) s,
      (daemon.world.effect choice operation answer).sessions[session]? = some s → s.isOpen = true →
        phase.session = some session := by
    intro session s known isOpen
    obtain ⟨old, before, wasOpen⟩ := leaves.opened daemon.world choice answer known isOpen
    exact shows'.opened session old before wasOpen
  unfold Continues at continues
  cases reached : stage thread.history with
  | idle =>
    refine ⟨phase, .stay phase, shows'.advanced found (.inr (.inl rfl)) ?_ (fun _ _ => rfl) entry pumps opened⟩
    rw [leaves.stage, ← own, reached]
  | checked other =>
    cases ConsolePhase.stage_checked (own.symm.trans reached)
    refine ⟨.closed, .giveUp index, shows'.advanced found (.inl rfl) ?_ ?_ entry pumps opened⟩
    · rw [leaves.stage]
      rfl
    · intro other different
      simp only [ConsolePhase.stage, if_neg different]
  | attached containerId session =>
    rw [reached] at continues
    cases continues
    exact leaves.elim
  | installed server session =>
    rw [reached] at continues
    cases continues
    exact leaves.elim

theorem not_pending_of_alone (alone : daemon.checksAlone label = true)
    (passes : daemon.passing label = some serverId) (member : thread ∈ daemon.threads) :
    pending serverId thread = false := by
  simp only [checksAlone, passes, Option.all_some, List.all_eq_true] at alone
  simpa using alone thread member

theorem Shows.opening (shows' : daemon.Shows serverId phase) (opening : phase.thread = some index) :
    ∃ thread ∈ daemon.threads, thread.origin.serverId = serverId ∧
      stage thread.history = phase.stage serverId index := by
  have known := List.getElem?_eq_getElem (shows'.present index opening)
  have member := List.mem_of_getElem? known
  exact ⟨_, member, (shows'.commands _ member).2, shows'.stages index _ known⟩

/-- A start that finds no console, and no other start on its way, is the first. -/
theorem Shows.closed_of_alone (shows' : daemon.Shows serverId phase)
    (alone : daemon.checksAlone label = true) (passes : daemon.passing label = some serverId)
    (none : daemon.world.consoles.lookup serverId = none) : phase = .closed := by
  have free := shows'.entry.symm.trans none
  cases phase with
  | closed => rfl
  | checking opening =>
    obtain ⟨thread, member, server, reached⟩ := shows'.opening rfl
    have idle := not_pending_of_alone alone passes member
    simp [pending, server, reached, ConsolePhase.stage] at idle
  | attached opening containerId session =>
    obtain ⟨thread, member, server, reached⟩ := shows'.opening rfl
    have idle := not_pending_of_alone alone passes member
    simp [pending, server, reached, ConsolePhase.stage] at idle
  | installed opening session => cases free
  | pumping session => cases free

theorem Shows.contains (shows' : daemon.Shows serverId phase) (conducted : daemon.Conducted)
    (found : daemon.threads[index]? = some thread)
    (waiting : thread.rest = .call (.consolesContains serverId) rest)
    (alone : daemon.checksAlone (.advance index choice) = true)
    (answered : answer = (daemon.world.consoles.lookup serverId).isSome) :
    ∃ next, phase.Moves next ∧ Shows serverId ⟨daemon.world.effect choice (.consolesContains serverId) answer,
      daemon.threads.set index (thread.resume (.consolesContains serverId) answer (rest answer))⟩ next := by
  have continues := ((conducted thread (List.mem_of_getElem? found)).next waiting).continues
  have own := shows'.stages index thread found
  unfold Continues at continues
  cases held : daemon.world.consoles.lookup serverId with
  | some session =>
    rw [held, Option.isSome_some] at answered
    subst answered
    refine ⟨phase, .stay phase, shows'.advanced found (.inr (.inl rfl)) ?_ (fun _ _ => rfl) shows'.entry
      shows'.pumps shows'.opened⟩
    rw [← own]
    cases reached : stage thread.history with
    | idle => rfl
    | checked other =>
      cases ConsolePhase.stage_checked (own.symm.trans reached)
      cases shows'.entry.symm.trans held
    | attached containerId session =>
      rw [reached] at continues
      contradiction
    | installed server session =>
      rw [reached] at continues
      contradiction
  | none =>
    rw [held, Option.isSome_none] at answered
    subst answered
    have passes : daemon.passing (.advance index choice) = some serverId := by
      simp [passing, found, waiting, held]
    cases shows'.closed_of_alone alone passes held
    refine ⟨.checking index, .check index, shows'.advanced found (.inr (.inr rfl)) ?_ ?_ held shows'.pumps
      shows'.opened⟩
    · simp only [ConsolePhase.stage, if_true]
      rfl
    · intro other different
      simp only [ConsolePhase.stage, if_neg different]

theorem Shows.attach (shows' : daemon.Shows serverId phase)
    (found : daemon.threads[index]? = some thread)
    (checked : stage thread.history = .checked server)
    {answer chosen : Except String SessionId}
    (answered : answer = chosen.map fun _ => daemon.world.sessions.length) (rest : Task AckPayload) :
    ∃ next, phase.Moves next ∧
      Shows serverId ⟨daemon.world.effect choice (.runtime (.attach containerId)) answer,
        daemon.threads.set index (thread.resume (.runtime (.attach containerId)) answer rest)⟩ next := by
  cases ConsolePhase.stage_checked ((shows'.stages index thread found).symm.trans checked)
  cases chosen with
  | error message =>
    subst answered
    refine ⟨.closed, .giveUp index, shows'.advanced found (.inl rfl) rfl ?_ shows'.entry shows'.pumps
      shows'.opened⟩
    intro other different
    simp only [ConsolePhase.stage, if_neg different]
  | ok fresh =>
    subst answered
    refine ⟨.attached index containerId daemon.world.sessions.length, .attach _ _ _,
      shows'.advanced found (.inr (.inr rfl)) ?_ ?_ shows'.entry shows'.pumps ?_⟩
    · simp only [ConsolePhase.stage, if_true]
      rfl
    · intro other different
      simp only [ConsolePhase.stage, if_neg different]
    · -- while the start was attaching nothing else was open
      intro session s known isOpen
      change (daemon.world.sessions ++ [_])[session]? = some s at known
      rw [List.getElem?_append] at known
      split at known
      · exact nomatch shows'.opened session s known isOpen
      · rename_i beyond
        have last := (List.getElem?_eq_some_iff.mp known).1
        rw [List.length_singleton] at last
        have same : daemon.world.sessions.length = session := by omega
        rw [same]
        rfl

theorem Shows.insert (shows' : daemon.Shows serverId phase)
    (found : daemon.threads[index]? = some thread)
    (reached : stage thread.history = .attached containerId session) (rest : Task AckPayload) :
    ∃ next, phase.Moves next ∧
      Shows serverId ⟨daemon.world.effect choice (.consolesInsert serverId session) (),
        daemon.threads.set index (thread.resume (.consolesInsert serverId session) () rest)⟩ next := by
  cases ConsolePhase.stage_attached ((shows'.stages index thread found).symm.trans reached)
  refine ⟨.installed index session, .install _ _ _,
    shows'.advanced found (.inr (.inr rfl)) ?_ ?_ ?_ shows'.pumps shows'.opened⟩
  · simp only [ConsolePhase.stage, if_true]
    rfl
  · intro other different
    simp only [ConsolePhase.stage, if_neg different]
  · change (daemon.world.consoles.insert serverId session).lookup serverId = some session
    rw [HashMap.lookup_insert_eq, if_pos rfl]

theorem Shows.spawn (shows' : daemon.Shows serverId phase)
    (found : daemon.threads[index]? = some thread)
    (reached : stage thread.history = .installed server session) (rest : Task AckPayload) :
    ∃ next, phase.Moves next ∧
      Shows serverId ⟨daemon.world.effect choice (.spawnPump server session) (),
        daemon.threads.set index (thread.resume (.spawnPump server session) () rest)⟩ next := by
  obtain ⟨rfl, rfl⟩ := ConsolePhase.stage_installed ((shows'.stages index thread found).symm.trans reached)
  refine ⟨.pumping session, .pump index session,
    shows'.advanced found (.inl rfl) rfl ?_ shows'.entry ?_ shows'.opened⟩
  · intro other different
    simp only [ConsolePhase.stage, if_neg different]
  · change daemon.world.pumps ++ [_] = _
    rw [shows'.pumps]
    rfl

/-- One call of a start moves the console of its server on, or leaves it. -/
theorem Shows.advance (shows' : daemon.Shows serverId phase) (conducted : daemon.Conducted)
    (stepped : daemon.Steps dispatcher codec (.advance index choice) after)
    (alone : daemon.checksAlone (.advance index choice) = true) :
    ∃ next, phase.Moves next ∧ after.Shows serverId next := by
  obtain ⟨thread, operation, rest, answer, found, waiting, answered, rfl⟩ := advance_cases stepped
  have member := List.mem_of_getElem? found
  obtain ⟨isStart, server⟩ := shows'.commands thread member
  have permitted := ((conducted thread member).next waiting).permitted
  cases operation with
  | consolesContains other =>
    cases permitted.trans server
    exact shows'.contains conducted found waiting alone answered
  | consolesInsert other session =>
    obtain ⟨same, containerId, reached⟩ := permitted
    cases same.trans server
    exact shows'.insert found reached _
  | consolesRemove other =>
    cases permitted.2.symm.trans isStart
  | spawnPump other session => exact shows'.spawn found permitted _
  | runtime call =>
    cases call with
    | attach containerId => exact shows'.attach found permitted answered _
    | _ => exact shows'.leaves conducted found waiting trivial
  | _ => exact shows'.leaves conducted found waiting trivial

theorem Shows.receive (shows' : daemon.Shows serverId phase)
    (starts : startsOnly serverId (.receive cmd) = true) :
    Shows serverId { daemon with
      threads := daemon.threads ++ [.spawn (dispatcher.handle codec) cmd] } phase where
  commands := by
    intro thread member
    rcases List.mem_append.mp member with old | new
    · exact shows'.commands thread old
    · cases List.mem_singleton.mp new
      have both : cmd.action = .start ∧ cmd.serverId = serverId := by simpa [startsOnly] using starts
      exact both
  present := by
    intro index opening
    rw [List.length_append]
    exact Nat.lt_add_right _ (shows'.present index opening)
  stages := by
    intro index thread known
    rw [List.getElem?_append] at known
    split at known
    · exact shows'.stages index thread known
    · rename_i beyond
      cases List.mem_singleton.mp (List.mem_of_getElem? known)
      have other : phase.thread ≠ some index := fun opening => beyond (shows'.present index opening)
      exact (ConsolePhase.stage_other other).symm
  entry := shows'.entry
  pumps := shows'.pumps
  opened := shows'.opened

theorem Shows.close (shows' : daemon.Shows serverId phase) (session : SessionId) :
    Shows serverId { daemon with world := daemon.world.close session } phase where
  commands := shows'.commands
  present := shows'.present
  stages := shows'.stages
  entry := shows'.entry
  pumps := shows'.pumps
  opened := by
    intro other s known isOpen
    change (daemon.world.sessions.modify session _)[other]? = some s at known
    rw [List.getElem?_modify] at known
    obtain ⟨old, before, rfl⟩ := Option.map_eq_some_iff.mp known
    apply shows'.opened other old before
    split at isOpen
    · contradiction
    · exact isOpen

/-- The pump ends only after its connection did, so nothing is left open. -/
theorem Shows.finish (shows' : daemon.Shows serverId phase)
    (stepped : daemon.Steps dispatcher codec (.finish index) after) :
    ∃ next, phase.Moves next ∧ after.Shows serverId next := by
  obtain ⟨pump, found, closed, rfl⟩ := finish_cases stepped
  rw [shows'.pumps] at found
  cases phase with
  | pumping session =>
    obtain ⟨only, same⟩ := List.getElem?_eq_some_iff.mp found
    obtain rfl : index = 0 := by
      simp only [ConsolePhase.pumps, List.length_singleton] at only
      omega
    cases same
    refine ⟨.closed, .finish session, ?_⟩
    constructor
    · exact shows'.commands
    · nofun
    · exact shows'.stages
    · change (daemon.world.consoles.erase serverId).lookup serverId = none
      rw [HashMap.lookup_erase_eq, if_pos rfl]
    · change daemon.world.pumps.eraseIdx 0 = []
      rw [shows'.pumps]
      rfl
    · intro other s known isOpen
      cases shows'.opened other s known isOpen
      rw [closed s known] at isOpen
      contradiction
  | _ => cases found

/-- The daemon refines the abstract console: every step is a move of it, or none. -/
theorem Shows.step (shows' : daemon.Shows serverId phase) (conducted : daemon.Conducted)
    (stepped : SoleSteps dispatcher codec serverId daemon label after) :
    ∃ next, phase.Moves next ∧ after.Shows serverId next := by
  obtain ⟨stepped, guard⟩ := stepped
  obtain ⟨starts, alone⟩ := Bool.and_eq_true_iff.mp guard
  cases label with
  | receive cmd =>
    cases stepped
    exact ⟨phase, .stay phase, shows'.receive starts⟩
  | advance index choice => exact shows'.advance conducted stepped alone
  | print container text =>
    cases stepped
    exact ⟨phase, .stay phase, ⟨shows'.commands, shows'.present, shows'.stages, shows'.entry,
      shows'.pumps, shows'.opened⟩⟩
  | close session =>
    cases stepped
    exact ⟨phase, .stay phase, shows'.close session⟩
  | forward index =>
    obtain ⟨_, _, _, _, -, -, -, rfl⟩ := forward_cases stepped
    exact ⟨phase, .stay phase, ⟨shows'.commands, shows'.present, shows'.stages, shows'.entry,
      shows'.pumps, shows'.opened⟩⟩
  | finish index => exact shows'.finish stepped

end Daemon

end SkyDaemon.Agent
