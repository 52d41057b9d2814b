import SkyDaemon.Agent.ConsolePhase
import Mathlib.Logic.Relation

/-! The lines a container prints, from the sessions that hear them to the events the
daemon forwards. Runs that keep to the abstract console forward a line at most once;
two starts that pass the presence check together forward it twice. -/
namespace SkyDaemon.Agent
open Protocol Program Transition

namespace World

/-- The printed lines that were forwarded, and those still on their way. -/
def numbers (world : World) : List Nat :=
  world.events.filterMap Emitted.printed ++ world.lines.map Line.number

/-- No printed line is counted twice. -/
structure Numbered (world : World) : Prop where
  nodup : world.numbers.Nodup
  bound : ∀ number ∈ world.numbers, number < world.printed

theorem numbers_effect (world : World) (choice : Choice) (call : Call) (answer : call.Response) :
    (world.effect choice call answer).numbers = world.numbers := by
  unfold numbers
  change (world.eventsAfter call).filterMap _ ++ _ = _
  cases call with
  | emit event => simp [eventsAfter, List.filterMap_append]; rfl
  | _ => rfl

/-- One listener at most hears a line. -/
theorem Numbered.print {world : World} (numbered : world.Numbered)
    (single : (world.listeners container).length ≤ 1) (text : String) :
    (world.print container text).Numbered := by
  have heard : (world.print container text).numbers =
      world.numbers ++ (world.listeners container).map fun _ => world.printed := by
    simp only [numbers, World.print, List.map_append, List.map_map, List.append_assoc]
    rfl
  have fresh : world.printed ∉ world.numbers := fun member =>
    absurd (numbered.bound _ member) (Nat.lt_irrefl _)
  constructor
  · rw [heard, List.nodup_append]
    refine ⟨numbered.nodup, ?_, ?_⟩
    · cases listening : world.listeners container with
      | nil => exact List.nodup_nil
      | cons first others =>
        rw [listening] at single
        cases others with
        | nil => exact List.nodup_singleton _
        | cons second others => simp at single
    · intro number member other later same
      obtain ⟨_, -, rfl⟩ := List.mem_map.mp later
      exact fresh (same ▸ member)
  · intro number member
    rw [heard] at member
    change number < world.printed + 1
    rcases List.mem_append.mp member with old | new
    · exact Nat.lt_succ_of_lt (numbered.bound number old)
    · obtain ⟨_, -, rfl⟩ := List.mem_map.mp new
      exact Nat.lt_succ_self _

/-- Forwarding moves a line from one part of the count to the other. -/
theorem Numbered.forward {world : World} (numbered : world.Numbered)
    (split : world.lines = before ++ line :: later) (payload : EventPayload) :
    Numbered { world with
      lines := before ++ later
      events := world.events ++ [⟨payload, some line.number⟩] } := by
  have moved : (numbers { world with
      lines := before ++ later
      events := world.events ++ [⟨payload, some line.number⟩] }).Perm world.numbers := by
    simp only [numbers, split, List.filterMap_append, List.map_append, List.map_cons,
      List.filterMap_cons, List.filterMap_nil, List.append_assoc, List.singleton_append]
    exact (List.perm_middle.symm).append_left _
  constructor
  · exact moved.nodup_iff.mpr numbered.nodup
  · intro number member
    exact numbered.bound number (moved.mem_iff.mp member)

end World

namespace Daemon
variable {dispatcher : Dispatcher} {codec : Base64} {daemon after : Daemon} {serverId : String}
  {phase : ConsolePhase}

theorem mem_listeners {world : World} (member : session ∈ world.listeners container) :
    ∃ s, world.sessions[session]? = some s ∧ s.isOpen = true ∧ s.container = container := by
  obtain ⟨-, hears⟩ := List.mem_filter.mp member
  obtain ⟨s, found, isOpen⟩ := (Option.any_eq_true _ _).mp hears
  obtain ⟨isOpen, same⟩ := Bool.and_eq_true_iff.mp isOpen
  exact ⟨s, found, isOpen, by simpa using same⟩

theorem Shows.listeners (shows' : daemon.Shows serverId phase) (container : String) :
    (daemon.world.listeners container).length ≤ 1 := by
  have nodup : (daemon.world.listeners container).Nodup := List.nodup_range.filter _
  have only : ∀ session ∈ daemon.world.listeners container, phase.session = some session := by
    intro session member
    obtain ⟨s, found, isOpen, -⟩ := mem_listeners member
    exact shows'.opened session s found isOpen
  match listening : daemon.world.listeners container with
  | [] => exact Nat.zero_le 1
  | [_] => exact Nat.le_refl 1
  | first :: second :: others =>
    rw [listening] at nodup only
    have same := (only first (by simp)).symm.trans (only second (by simp))
    cases same
    simp at nodup

theorem numbered_step (numbered : daemon.world.Numbered) (shows' : daemon.Shows serverId phase)
    (stepped : daemon.Steps dispatcher codec label after) : after.world.Numbered := by
  cases label with
  | receive cmd =>
    cases stepped
    exact numbered
  | advance index choice =>
    obtain ⟨_, operation, _, answer, -, -, -, rfl⟩ := advance_cases stepped
    have same := daemon.world.numbers_effect choice operation answer
    exact ⟨same ▸ numbered.nodup, fun number member => numbered.bound number (same ▸ member)⟩
  | print container text =>
    cases stepped
    exact numbered.print (shows'.listeners container) text
  | close session =>
    cases stepped
    exact ⟨numbered.nodup, numbered.bound⟩
  | forward index =>
    obtain ⟨pump, _, _, _, -, split, -, rfl⟩ := forward_cases stepped
    exact numbered.forward split _
  | finish index =>
    obtain ⟨_, -, -, rfl⟩ := finish_cases stepped
    exact ⟨numbered.nodup, numbered.bound⟩

/-- The abstract console has moved from closed to the phase that the daemon shows. -/
structure Refines (serverId : String) (daemon : Daemon) : Prop where
  shown : ∃ phase, Relation.ReflTransGen ConsolePhase.Moves .closed phase ∧ daemon.Shows serverId phase
  conducted : daemon.Conducted
  numbered : daemon.world.Numbered

theorem Refines.start (serverId : String) (tracked : HashMap String String) :
    (Daemon.start tracked).Refines serverId where
  shown := ⟨.closed, .refl, .start serverId tracked⟩
  conducted := .start tracked
  numbered := ⟨List.nodup_nil, fun _ member => nomatch member⟩

theorem Refines.step (refines : daemon.Refines serverId)
    (stepped : SoleSteps dispatcher codec serverId daemon label after) : after.Refines serverId := by
  obtain ⟨phase, moved, shows'⟩ := refines.shown
  obtain ⟨next, move, shown⟩ := shows'.step refines.conducted stepped
  constructor
  · exact ⟨next, moved.tail move, shown⟩
  · exact refines.conducted.step stepped.1
  · exact numbered_step refines.numbered shows' stepped.1

theorem Refines.run (run : Run (SoleSteps dispatcher codec serverId) (Daemon.start tracked) labels daemon) :
    daemon.Refines serverId :=
  run.invariant (fun refines stepped => refines.step stepped) (.start serverId tracked)

/-- While no start passes the presence check before another has installed its session,
starts of one server never have two open sessions on a container, and each line that a
container prints is forwarded at most once. -/
theorem one_open_console (dispatcher : Dispatcher) (codec : Base64) (tracked : HashMap String String)
    (serverId : String) (labels : List Label) (daemon : Daemon)
    (run : Run (SoleSteps dispatcher codec serverId) (Daemon.start tracked) labels daemon) :
    (∀ (i j : SessionId) first second, daemon.world.sessions[i]? = some first →
      daemon.world.sessions[j]? = some second → first.isOpen = true → second.isOpen = true →
      first.container = second.container → i = j) ∧
    (daemon.world.events.filterMap Emitted.printed).Nodup := by
  obtain ⟨⟨phase, -, shows'⟩, -, numbered⟩ := Refines.run run
  constructor
  · intro i j first second found found' isOpen isOpen' _
    have same := (shows'.opened i first found isOpen).symm.trans (shows'.opened j second found' isOpen')
    exact Option.some.inj same
  · exact (List.nodup_append.mp numbered.nodup).1

/-- Two starts of `s1` one after the other; the container prints a line. -/
def startedTwice : List Label :=
  Label.receive (lifecycleCommand .start "s1" none) :: List.replicate 8 (Label.call 0) ++
    Label.receive (lifecycleCommand .start "s1" none) :: List.replicate 5 (Label.call 1) ++
    [Label.print "c1" "ready", .forward 0]

def sole (labels : List Label) : Option Daemon :=
  labels.foldlM (fun daemon label => if startsOnly "s1" label && daemon.checksAlone label then
    daemon.step Dispatcher.defaultDispatcher Dispatcher.unusedCodec label else none) tracking

def startedTwiceDaemon : Daemon := (sole startedTwice).getD tracking

theorem second_start_opens_nothing :
    startedTwiceDaemon.world.events.filterMap Emitted.printed = [0] ∧
      (startedTwiceDaemon.world.events.filterMap Emitted.printed).Nodup := by
  have executed : sole startedTwice = some startedTwiceDaemon :=
    (Option.getD_of_ne_none (by decide +kernel) tracking).symm
  have settled := one_open_console Dispatcher.defaultDispatcher Dispatcher.unusedCodec _ "s1" startedTwice
    startedTwiceDaemon (.of_foldlM_guarded executed)
  exact ⟨by decide +kernel, settled.2⟩

/-- Two starts of `s1` that both pass the check before either has attached. -/
def startedTogether : List Label :=
  Label.receive (lifecycleCommand .start "s1" none) :: Label.receive (lifecycleCommand .start "s1" none) ::
    List.replicate 5 (Label.call 0) ++ List.replicate 5 (Label.call 1) ++
    List.replicate 3 (Label.call 0) ++ List.replicate 3 (Label.call 1) ++
    [Label.print "c1" "ready", .forward 0, .forward 1]

def startedTogetherDaemon : Daemon := (tracking.exec startedTogether).getD tracking

/-- Both attach, both sessions stay open, and the line is emitted twice. -/
theorem concurrent_starts_attach_twice :
    Run (Steps Dispatcher.defaultDispatcher Dispatcher.unusedCodec) tracking startedTogether
        startedTogetherDaemon ∧
      startedTogether.all (startsOnly "s1") = true ∧
      startedTogetherDaemon.world.sessions = [⟨"c1", true, false, []⟩, ⟨"c1", true, false, []⟩] ∧
      (startedTogetherDaemon.world.events.filter fun event => event.payload.kind = .consoleLine) =
        [⟨⟨"s1", .consoleLine, "ready"⟩, some 0⟩, ⟨⟨"s1", .consoleLine, "ready"⟩, some 0⟩] := by
  have executed : tracking.exec startedTogether = some startedTogetherDaemon :=
    (Option.getD_of_ne_none (by decide +kernel) tracking).symm
  exact ⟨.of_foldlM executed, by decide +kernel, by decide +kernel, by decide +kernel⟩

end Daemon
end SkyDaemon.Agent
