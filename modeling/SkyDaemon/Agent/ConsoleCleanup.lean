import SkyDaemon.Agent.Concurrent

/-! The end of a console. A pump that ends takes the entry of its server out of the
map without looking whose session it holds. -/
namespace SkyDaemon.Agent
open Protocol Program Transition

namespace Daemon
variable {dispatcher : Dispatcher} {codec : Base64} {daemon after : Daemon}

/-- A session that was installed for the server and whose pump has not ended. -/
def Unended (daemon : Daemon) (serverId : String) (session : SessionId) : Prop :=
  ⟨serverId, session⟩ ∈ daemon.world.pumps ∨
    ∃ thread ∈ daemon.threads, stage thread.history = .installed serverId session

/-- The server for which a step puts a session into the map. -/
def installing (daemon : Daemon) : Label → Option String
  | .advance index _ => (daemon.threads[index]?).bind fun thread =>
      match thread.rest with
      | .call (.consolesInsert serverId _) _ => some serverId
      | _ => none
  | _ => none

/-- A session is installed only when every earlier one of the server has ended. -/
def installsAlone (daemon : Daemon) (label : Label) : Bool :=
  (daemon.installing label).all fun serverId =>
    daemon.world.pumps.all (·.serverId != serverId) && daemon.threads.all fun thread =>
      match stage thread.history with
      | .installed other _ => other != serverId
      | _ => true

theorem installing_eq (found : daemon.threads[index]? = some thread)
    (waiting : thread.rest = .call (.consolesInsert serverId session) next) :
    daemon.installing (.advance index choice) = some serverId := by
  simp only [installing, found, Option.bind_some, waiting]

theorem ended_of_installsAlone (alone : daemon.installsAlone label = true)
    (installs : daemon.installing label = some serverId) : ¬ daemon.Unended serverId session := by
  simp only [installsAlone, installs, Option.all_some, Bool.and_eq_true, List.all_eq_true] at alone
  rintro (pumping | ⟨thread, member, installed⟩)
  · simpa using alone.1 _ pumping
  · simpa [installed] using alone.2 thread member

/-- A session is unended because it was before, or because this step installs it. -/
theorem unended_step (conducted : daemon.Conducted) (stepped : daemon.Steps dispatcher codec label after)
    (unended : after.Unended serverId session) :
    daemon.Unended serverId session ∨ ∃ index choice thread next, label = .advance index choice ∧
      daemon.threads[index]? = some thread ∧
      thread.rest = .call (.consolesInsert serverId session) next := by
  rcases unended with pumping | ⟨thread, member, installed⟩
  · left
    cases label with
    | receive cmd =>
      cases stepped
      exact .inl pumping
    | advance index choice =>
      obtain ⟨thread, operation, next, answer, found, waiting, -, rfl⟩ := advance_cases stepped
      have member := List.mem_of_getElem? found
      cases operation with
      | spawnPump server started =>
        rcases List.mem_append.mp pumping with old | new
        · exact .inl old
        · cases List.mem_singleton.mp new
          exact .inr ⟨thread, member, ((conducted thread member).next waiting).permitted⟩
      | _ => exact .inl pumping
    | print container text =>
      cases stepped
      exact .inl pumping
    | close closing =>
      cases stepped
      exact .inl pumping
    | forward index =>
      obtain ⟨_, _, _, _, -, -, -, rfl⟩ := forward_cases stepped
      exact .inl pumping
    | finish index =>
      obtain ⟨_, -, -, rfl⟩ := finish_cases stepped
      exact .inl (List.mem_of_mem_eraseIdx pumping)
  · rcases step_threads stepped member with old | ⟨cmd, -, rfl⟩ |
      ⟨index, choice, earlier, operation, next, answer, rfl, found, waiting, -, rfl, -⟩
    · exact .inl (.inr ⟨thread, old, installed⟩)
    · exact nomatch installed
    · rw [Thread.resume, stage_append] at installed
      unfold Stage.after at installed
      split at installed <;> try contradiction
      rename_i same
      cases installed
      cases same
      exact .inr ⟨index, choice, earlier, next, rfl, found, waiting⟩

/-- An entry stays, goes, or is replaced by a session that this step installs. -/
theorem step_consoles (stepped : daemon.Steps dispatcher codec label after) (serverId : String) :
    after.world.consoles.lookup serverId = daemon.world.consoles.lookup serverId ∨
      after.world.consoles.lookup serverId = none ∨ daemon.installing label = some serverId := by
  have erased (other : String) :
      (daemon.world.consoles.erase other).lookup serverId = daemon.world.consoles.lookup serverId ∨
        (daemon.world.consoles.erase other).lookup serverId = none := by
    rw [HashMap.lookup_erase_eq]
    split
    · exact .inr rfl
    · exact .inl rfl
  cases label with
  | receive cmd =>
    cases stepped
    exact .inl rfl
  | advance index choice =>
    obtain ⟨thread, operation, next, answer, found, waiting, -, rfl⟩ := advance_cases stepped
    cases operation with
    | consolesInsert server session =>
      by_cases same : serverId = server
      · exact .inr (.inr (same ▸ installing_eq found waiting))
      · left
        change (daemon.world.consoles.insert server session).lookup serverId = _
        rw [HashMap.lookup_insert_eq, if_neg same]
    | consolesRemove server =>
      rcases erased server with kept | gone
      · exact .inl kept
      · exact .inr (.inl gone)
    | _ => exact .inl rfl
  | print container text =>
    cases stepped
    exact .inl rfl
  | close session =>
    cases stepped
    exact .inl rfl
  | forward index =>
    obtain ⟨_, _, _, _, -, -, -, rfl⟩ := forward_cases stepped
    exact .inl rfl
  | finish index =>
    obtain ⟨pump, -, -, rfl⟩ := finish_cases stepped
    rcases erased pump.serverId with kept | gone
    · exact .inl kept
    · exact .inr (.inl gone)

/-- The map holds no other session for a server that has an unended one. -/
def Owned (daemon : Daemon) : Prop :=
  ∀ serverId session, daemon.Unended serverId session →
    daemon.world.consoles.lookup serverId = none ∨
      daemon.world.consoles.lookup serverId = some session

theorem Owned.step (owned : daemon.Owned) (conducted : daemon.Conducted)
    (stepped : daemon.Steps dispatcher codec label after) (alone : daemon.installsAlone label = true) :
    after.Owned := by
  intro serverId session unended
  rcases unended_step conducted stepped unended with earlier | ⟨index, choice, thread, next, rfl, found, waiting⟩
  · rcases step_consoles stepped serverId with same | gone | installs
    · rw [same]
      exact owned serverId session earlier
    · exact .inl gone
    · exact absurd earlier (ended_of_installsAlone alone installs)
  · right
    obtain ⟨_, operation, _, answer, found', waiting', -, rfl⟩ := advance_cases stepped
    cases found.symm.trans found'
    cases waiting.symm.trans waiting'
    change (daemon.world.consoles.insert serverId session).lookup serverId = _
    rw [HashMap.lookup_insert_eq, if_pos rfl]

/-- The steps in which sessions are installed one after another. -/
abbrev OrderlySteps (dispatcher : Dispatcher) (codec : Base64) : Daemon → Label → Daemon → Prop :=
  Guarded (Steps dispatcher codec) fun daemon label => daemon.installsAlone label = true

theorem Owned.run (run : Run (OrderlySteps dispatcher codec) (Daemon.start tracked) labels daemon) :
    daemon.Owned ∧ daemon.Conducted := by
  apply run.invariant (P := fun daemon => daemon.Owned ∧ daemon.Conducted)
  · rintro s label t ⟨owned, conducted⟩ ⟨stepped, alone⟩
    exact ⟨owned.step conducted stepped alone, conducted.step stepped⟩
  · refine ⟨?_, .start tracked⟩
    rintro serverId session (pumping | ⟨thread, member, -⟩)
    · exact nomatch pumping
    · exact nomatch member

/-- In a run in which no session is installed for a server before the pumps of its
earlier sessions have ended, a pump that ends leaves every session but its own. -/
theorem finish_keeps_other_sessions (dispatcher : Dispatcher) (codec : Base64)
    (tracked : HashMap String String) (labels : List Label) (daemon after : Daemon) (index : Nat)
    (run : Run (OrderlySteps dispatcher codec) (Daemon.start tracked) labels daemon)
    (stepped : daemon.Steps dispatcher codec (.finish index) after) :
    ∃ pump, daemon.world.pumps[index]? = some pump ∧
      ∀ serverId session, daemon.world.consoles.lookup serverId = some session →
        (serverId, session) ≠ (pump.serverId, pump.session) →
        after.world.consoles.lookup serverId = some session := by
  obtain ⟨pump, found, -, rfl⟩ := finish_cases stepped
  refine ⟨pump, found, ?_⟩
  intro serverId session held other
  change (daemon.world.consoles.erase pump.serverId).lookup serverId = some session
  rw [HashMap.lookup_erase_eq]
  split
  · rename_i same
    subst same
    -- the entry is the pump's own
    rcases (Owned.run run).1 pump.serverId pump.session (.inl (List.mem_of_getElem? found)) with none | own
    · rw [none] at held
      contradiction
    · cases own.symm.trans held
      exact absurd rfl other
  · exact held

/-- A start of `s1` and then one of `s2`, each to its end; then the first connection is lost. -/
def twoServers : List Label :=
  Label.receive (lifecycleCommand .start "s1" none) :: List.replicate 8 (Label.call 0) ++
    Label.receive (lifecycleCommand .start "s2" (some "c2")) :: List.replicate 7 (Label.call 1) ++ [Label.close 0]

def orderly (labels : List Label) : Option Daemon :=
  labels.foldlM (fun daemon label => if daemon.installsAlone label then
    daemon.step Dispatcher.defaultDispatcher Dispatcher.unusedCodec label else none) tracking

def bothStarted : Daemon := (orderly twoServers).getD tracking

theorem finish_keeps_other_server :
    ∃ after, bothStarted.Steps Dispatcher.defaultDispatcher Dispatcher.unusedCodec (.finish 0) after ∧
      after.world.consoles.lookup "s1" = none ∧ after.world.consoles.lookup "s2" = some 1 := by
  have ends : ((bothStarted.step Dispatcher.defaultDispatcher Dispatcher.unusedCodec (.finish 0)).any
      fun after => after.world.consoles.lookup "s1" = none) = true := by decide +kernel
  obtain ⟨after, stepped, gone⟩ := (Option.any_eq_true _ _).mp ends
  have executed : orderly twoServers = some bothStarted :=
    (Option.getD_of_ne_none (by decide +kernel) tracking).symm
  obtain ⟨pump, found, keeps⟩ := finish_keeps_other_sessions Dispatcher.defaultDispatcher
    Dispatcher.unusedCodec _ twoServers bothStarted after 0 (.of_foldlM_guarded executed) stepped
  have first : bothStarted.world.pumps[0]? = some ⟨"s1", 0⟩ := by decide +kernel
  have second : bothStarted.world.consoles.lookup "s2" = some 1 := by decide +kernel
  cases first.symm.trans found
  exact ⟨after, stepped, of_decide_eq_true gone, keeps "s2" 1 second (by decide)⟩

/-- `s1` is started, removed, and started again on another container; then the first
connection is lost. -/
def restarted : List Label :=
  Label.receive (lifecycleCommand .start "s1" none) :: List.replicate 8 (Label.call 0) ++
    Label.receive (lifecycleCommand .remove "s1" none) :: List.replicate 4 (Label.call 1) ++
    Label.receive (lifecycleCommand .start "s1" (some "c2")) :: List.replicate 7 (Label.call 2) ++ [Label.close 0]

def restartedDaemon : Daemon := (tracking.exec restarted).getD tracking

/-- The end of the first session takes the second, still open, out of the map. -/
theorem finish_drops_later_session :
    Run (Steps Dispatcher.defaultDispatcher Dispatcher.unusedCodec) tracking restarted restartedDaemon ∧
      restartedDaemon.world.pumps[0]? = some ⟨"s1", 0⟩ ∧
      restartedDaemon.world.consoles.lookup "s1" = some 1 ∧
      restartedDaemon.world.sessions[1]? = some ⟨"c2", true, false, []⟩ ∧
      ∃ after, restartedDaemon.Steps Dispatcher.defaultDispatcher Dispatcher.unusedCodec (.finish 0) after ∧
        after.world.consoles.lookup "s1" = none := by
  have ends : ((restartedDaemon.step Dispatcher.defaultDispatcher Dispatcher.unusedCodec (.finish 0)).any
      fun after => after.world.consoles.lookup "s1" = none) = true := by decide +kernel
  obtain ⟨after, stepped, gone⟩ := (Option.any_eq_true _ _).mp ends
  have executed : tracking.exec restarted = some restartedDaemon :=
    (Option.getD_of_ne_none (by decide +kernel) tracking).symm
  exact ⟨.of_foldlM executed, by decide +kernel, by decide +kernel, by decide +kernel, after,
    stepped, of_decide_eq_true gone⟩

end Daemon
end SkyDaemon.Agent
