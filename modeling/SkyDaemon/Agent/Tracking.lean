import SkyDaemon.Agent.Concurrent

/-! What the tracked map remembers while commands interleave. `Remove` resolves its
container before it removes it and forgets the server afterwards, so it may forget a
container that it did not remove. -/
namespace SkyDaemon.Agent
open Protocol Program Transition

namespace World

theorem removed_effect (world : World) (choice : Choice) (call : Call) (answer : call.Response)
    (member : containerId ∈ world.removed) : containerId ∈ (world.effect choice call answer).removed := by
  change containerId ∈ world.removedAfter choice call answer
  unfold removedAfter
  split <;> simp [member]

end World

/-! ## Pending removals -/

/-- The container of a `Remove` that has resolved it and has not yet forgotten the server. -/
def removing (thread : CommandThread) : Option String :=
  match thread.rest with
  | .call (.runtime (.remove containerId)) _ => some containerId
  | .call (.trackedRemove _) _ =>
      match thread.history.getLast? with
      | some ⟨.runtime (.remove containerId), .ok ()⟩ => some containerId
      | _ => none
  | _ => none

/-- The removal is still to come, or it was the last call. -/
theorem removing_eq_some_iff (thread : CommandThread) : removing thread = some containerId ↔
    (∃ next, thread.rest = .call (.runtime (.remove containerId)) next) ∨
      (∃ serverId next, thread.rest = .call (.trackedRemove serverId) next) ∧ Removed thread.history containerId := by
  unfold removing
  split
  · rename_i other next waiting
    rw [waiting]
    simp only [Option.some.injEq, call.injEq, Call.runtime.injEq, RuntimeCall.remove.injEq, reduceCtorEq,
      false_and, exists_false, or_false]
    constructor
    · rintro rfl
      exact ⟨next, rfl, HEq.rfl⟩
    · rintro ⟨_, rfl, -⟩
      rfl
  · rename_i serverId next waiting
    have here : ∃ serverId next, thread.rest = .call (.trackedRemove serverId) next := ⟨serverId, next, waiting⟩
    have elsewhere : ¬ ∃ next, thread.rest = .call (.runtime (.remove containerId)) next := by simp [waiting]
    simp only [here, elsewhere, true_and, false_or, Removed]
    split
    · rename_i last ended
      obtain ⟨before, split⟩ := List.getLast?_eq_some_iff.mp ended
      rw [split]
      simp only [Option.some.injEq]
      constructor
      · rintro rfl
        exact ⟨before, rfl⟩
      · rintro ⟨_, same⟩
        have last := (List.append_inj' same rfl).2
        simp_all
    · rename_i other
      simp only [reduceCtorEq, false_iff]
      rintro ⟨before, same⟩
      exact other containerId (by simp [same])
  · rename_i other other'
    simp only [reduceCtorEq, false_iff, not_or, not_exists, not_and]
    exact ⟨fun next waiting => other _ _ waiting, fun ⟨serverId, next, waiting⟩ => absurd waiting (other' _ _)⟩

namespace Daemon
variable {dispatcher : Dispatcher} {codec : Base64} {daemon after : Daemon}

/-- A `Remove` names no container but the one that its server is tracked to. -/
def namesTracked (daemon : Daemon) : Label → Bool
  | .receive cmd => cmd.action != .remove ||
      cmd.containerId.all fun named => (daemon.world.tracked.lookup cmd.serverId).all (· == named)
  | _ => true

/-- A `Create` or `Start` tracks no other container while a `Remove` of its server is between resolving
one and forgetting the server. -/
def tracksAlone (daemon : Daemon) : Label → Bool
  | .advance index _ =>
      match (daemon.threads[index]?).map Thread.rest with
      | some (.call (.trackedInsert serverId containerId) _) =>
          daemon.threads.all fun other =>
            other.origin.serverId != serverId || (removing other).all (· == containerId)
      | _ => true
  | _ => true

def careful (daemon : Daemon) (label : Label) : Bool := daemon.namesTracked label && daemon.tracksAlone label

theorem namesTracked_receive (names : daemon.namesTracked (.receive cmd) = true) (action : cmd.action = .remove)
    (named : cmd.containerId = some containerId) (tracked : daemon.world.tracked.lookup cmd.serverId = some current) :
    current = containerId := by
  simpa [namesTracked, action, named, tracked] using names

theorem tracksAlone_advance (alone : daemon.tracksAlone (.advance index choice) = true)
    (found : daemon.threads[index]? = some thread) {next : Unit → Task AckPayload}
    (waiting : thread.rest = .call (.trackedInsert serverId containerId) next) (member : other ∈ daemon.threads)
    (own : other.origin.serverId = serverId) (pending : removing other = some target) : target = containerId := by
  simp only [tracksAlone, found, Option.map_some, waiting, List.all_eq_true] at alone
  simpa [own, pending] using alone other member

/-! ## What one step keeps -/

/-- The server is tracked, to the container or to one that a command has created or started for it. -/
def Holds (daemon : Daemon) (serverId containerId : String) : Prop :=
  ∃ current, daemon.world.tracked.lookup serverId = some current ∧
    (current = containerId ∨
      ∃ thread ∈ daemon.threads, thread.origin.serverId = serverId ∧ Acquired thread.history current)

/-- A server that is tracked to a container which still exists stays tracked. -/
def Retains (before after : Daemon) : Prop :=
  ∀ serverId containerId, before.world.tracked.lookup serverId = some containerId →
    containerId ∉ before.world.removed → after.Holds serverId containerId

/-- What a command has removed is known to be gone. -/
def RemovalsKnown (daemon : Daemon) : Prop :=
  ∀ thread ∈ daemon.threads, ∀ containerId, Removed thread.history containerId →
    containerId ∈ daemon.world.removed

/-- A `Remove` on its way has resolved the container that its server is tracked to. -/
def Agreed (daemon : Daemon) : Prop :=
  ∀ thread ∈ daemon.threads, ∀ containerId, removing thread = some containerId →
    ∀ current, daemon.world.tracked.lookup thread.origin.serverId = some current → current = containerId

/-- Only a call changes the tracked map or removes a container. -/
theorem step_advances_or_keeps (stepped : daemon.Steps dispatcher codec label after) :
    (∃ index choice, label = .advance index choice) ∨
      (after.world.tracked = daemon.world.tracked ∧ after.world.removed = daemon.world.removed) := by
  cases label with
  | receive cmd =>
    cases stepped
    exact .inr ⟨rfl, rfl⟩
  | advance index choice => exact .inl ⟨index, choice, rfl⟩
  | print container text =>
    cases stepped
    exact .inr ⟨rfl, rfl⟩
  | close session =>
    cases stepped
    exact .inr ⟨rfl, rfl⟩
  | forward index =>
    obtain ⟨_, _, _, _, -, -, -, rfl⟩ := forward_cases stepped
    exact .inr ⟨rfl, rfl⟩
  | finish index =>
    obtain ⟨_, -, -, rfl⟩ := finish_cases stepped
    exact .inr ⟨rfl, rfl⟩

theorem step_removed (stepped : daemon.Steps dispatcher codec label after)
    (member : containerId ∈ daemon.world.removed) : containerId ∈ after.world.removed := by
  rcases step_advances_or_keeps stepped with ⟨index, choice, rfl⟩ | ⟨-, same⟩
  · obtain ⟨_, operation, _, answer, -, -, -, rfl⟩ := advance_cases stepped
    exact daemon.world.removed_effect choice operation answer member
  · rwa [same]

/-- What a server is tracked to after a step it was tracked to before, or a command has just put there. -/
theorem step_tracked (conducted : daemon.Conducted) (stepped : daemon.Steps dispatcher codec label after)
    (tracked : after.world.tracked.lookup serverId = some containerId) :
    daemon.world.tracked.lookup serverId = some containerId ∨
      ∃ index choice thread next, label = .advance index choice ∧ daemon.threads[index]? = some thread ∧
        thread.rest = .call (.trackedInsert serverId containerId) next := by
  rcases step_advances_or_keeps stepped with ⟨index, choice, rfl⟩ | ⟨same, -⟩
  · obtain ⟨thread, operation, next, answer, found, waiting, -, rfl⟩ := advance_cases stepped
    cases operation with
    | trackedInsert server container =>
      change (daemon.world.tracked.insert server container).lookup serverId = _ at tracked
      rw [HashMap.lookup_insert_eq] at tracked
      split at tracked
      · rename_i own
        cases own
        cases tracked
        exact .inr ⟨index, choice, thread, next, rfl, found, waiting⟩
      · exact .inl tracked
    | trackedRemove server =>
      change (daemon.world.tracked.erase server).lookup serverId = _ at tracked
      rw [HashMap.lookup_erase_eq] at tracked
      split at tracked
      · contradiction
      · exact .inl tracked
    | trackedReconcile managed =>
      exact ((conducted thread (List.mem_of_getElem? found)).next waiting).permitted.elim
    | _ => exact .inl tracked
  · exact .inl (same ▸ tracked)

theorem RemovalsKnown.step (known : daemon.RemovalsKnown)
    (stepped : daemon.Steps dispatcher codec label after) : after.RemovalsKnown := by
  intro thread member containerId removed
  rcases step_threads stepped member with old | ⟨cmd, -, rfl⟩ |
    ⟨_, choice, earlier, operation, next, answer, -, -, -, -, rfl, world⟩
  · exact step_removed stepped (known thread old containerId removed)
  · obtain ⟨before, same⟩ := removed
    simp [Thread.spawn] at same
  · -- the command has just removed it
    obtain ⟨before, same⟩ := removed
    cases (List.append_inj' same rfl).2
    rw [world]
    exact List.mem_append_right _ List.mem_cons_self

/-- A pending removal has just resolved its container, or has just removed it. -/
theorem Conducted.removing (conducted : daemon.Conducted) (member : thread ∈ daemon.threads)
    (pending : removing thread = some containerId) :
    thread.origin.action = .remove ∧ Aims thread.origin thread.history containerId ∨
      Removed thread.history containerId := by
  rcases (removing_eq_some_iff thread).mp pending with ⟨next, waiting⟩ | ⟨-, removed⟩
  · exact .inl ((conducted thread member).next waiting).permitted
  · exact .inr removed

/-- A careful step brings no removal of another container under way. -/
theorem Agreed.step (agreed : daemon.Agreed) (conducted : daemon.Conducted)
    (stepped : daemon.Steps dispatcher codec label after) (careful : daemon.careful label = true) : after.Agreed := by
  obtain ⟨names, alone⟩ := Bool.and_eq_true_iff.mp careful
  intro thread member containerId pending current tracked
  have resolved := (conducted.step stepped).removing member pending
  rcases step_threads stepped member with old | ⟨cmd, rfl, rfl⟩ |
    ⟨index, choice, earlier, operation, next, answer, rfl, found, waiting, answered, rfl, world⟩
  · -- whatever gets tracked meanwhile is checked against this removal
    rcases step_tracked conducted stepped tracked with before | ⟨index, choice, other, next, rfl, found, waiting⟩
    · exact agreed thread old containerId pending current before
    · exact (tracksAlone_advance alone found waiting old rfl pending).symm
  · cases stepped
    rcases resolved with ⟨action, aims⟩ | ⟨before, same⟩
    · cases aims with
      | named given => exact namesTracked_receive names action given tracked
    · simp [Thread.spawn] at same
  · rw [world] at tracked
    rcases resolved with ⟨-, aims⟩ | ⟨before, same⟩
    · -- the map has just told which container it is
      have aims : Aims earlier.origin (earlier.history ++ [⟨operation, answer⟩]) containerId := aims
      obtain ⟨-, looked⟩ := aims.of_append
      cases looked
      exact Option.some.inj (tracked.symm.trans answered.symm)
    · cases (List.append_inj' same rfl).2
      have before : removing earlier = some containerId := (removing_eq_some_iff _).mpr (.inl ⟨next, waiting⟩)
      exact agreed earlier (List.mem_of_getElem? found) containerId before current tracked

/-- What holds in every state of a careful run. -/
structure Sound (daemon : Daemon) : Prop where
  conducted : daemon.Conducted
  known : daemon.RemovalsKnown
  agreed : daemon.Agreed

theorem sound_start (tracked : HashMap String String) : (Daemon.start tracked).Sound where
  conducted := .start tracked
  known _ member := nomatch member
  agreed _ member := nomatch member

abbrev CarefulSteps (dispatcher : Dispatcher) (codec : Base64) : Daemon → Label → Daemon → Prop :=
  Guarded (Steps dispatcher codec) fun daemon label => daemon.careful label = true

theorem Sound.step (sound : daemon.Sound) (stepped : CarefulSteps dispatcher codec daemon label after) :
    after.Sound where
  conducted := sound.conducted.step stepped.1
  known := sound.known.step stepped.1
  agreed := sound.agreed.step sound.conducted stepped.1 stepped.2

theorem Retains.of_same (same : after.world.tracked = daemon.world.tracked) : daemon.Retains after := by
  intro serverId containerId tracked _
  exact ⟨containerId, same ▸ tracked, .inl rfl⟩

theorem Sound.retains (sound : daemon.Sound) (stepped : daemon.Steps dispatcher codec label after) :
    daemon.Retains after := by
  rcases step_advances_or_keeps stepped with ⟨index, choice, rfl⟩ | ⟨same, -⟩
  · obtain ⟨thread, operation, next, answer, found, waiting, -, rfl⟩ := advance_cases stepped
    have present := List.mem_of_getElem? found
    have permitted := ((sound.conducted thread present).next waiting).permitted
    cases operation with
    | trackedInsert server container =>
      obtain ⟨rfl, acquired⟩ := permitted
      intro serverId containerId tracked _
      by_cases same : serverId = thread.origin.serverId
      · have advanced := List.mem_set (List.getElem?_eq_some_iff.mp found).1
          (thread.resume (.trackedInsert thread.origin.serverId container) answer (next answer))
        refine ⟨container, ?_, .inr ⟨_, advanced, same.symm, ?_⟩⟩
        · change (daemon.world.tracked.insert _ _).lookup serverId = _
          rw [HashMap.lookup_insert_eq, if_pos same]
        · exact acquired.append _
      · refine ⟨containerId, ?_, .inl rfl⟩
        change (daemon.world.tracked.insert _ _).lookup serverId = _
        rw [HashMap.lookup_insert_eq, if_neg same, tracked]
    | trackedRemove server =>
      obtain ⟨rfl, -, target, removed⟩ := permitted
      intro serverId containerId tracked remains
      by_cases same : serverId = thread.origin.serverId
      · -- the server is still tracked to the container that was removed
        subst same
        have pending : removing thread = some target := (removing_eq_some_iff _).mpr (.inr ⟨⟨_, _, waiting⟩, removed⟩)
        obtain rfl := sound.agreed thread present target pending containerId tracked
        exact absurd (sound.known thread present containerId removed) remains
      · refine ⟨containerId, ?_, .inl rfl⟩
        change (daemon.world.tracked.erase _).lookup serverId = _
        rw [HashMap.lookup_erase_eq, if_neg same, tracked]
    | trackedReconcile managed => exact permitted.elim
    | _ => exact .of_same rfl
  · exact .of_same same

/-! ## Whole runs -/

/-- A task goes on and forgets nothing. -/
theorem step_keeps_thread (stepped : daemon.Steps dispatcher codec label after) (member : thread ∈ daemon.threads) :
    ∃ later ∈ after.threads, later.origin = thread.origin ∧ thread.history <+: later.history := by
  cases label with
  | receive cmd =>
    cases stepped
    exact ⟨thread, List.mem_append_left _ member, rfl, List.prefix_rfl⟩
  | advance index choice =>
    obtain ⟨earlier, operation, next, answer, found, -, -, rfl⟩ := advance_cases stepped
    obtain ⟨place, here⟩ := List.mem_iff_getElem?.mp member
    by_cases same : place = index
    · subst same
      cases here.symm.trans found
      have bound := (List.getElem?_eq_some_iff.mp found).1
      exact ⟨_, List.mem_set bound _, rfl, List.prefix_append _ _⟩
    · refine ⟨thread, List.mem_iff_getElem?.mpr ⟨place, ?_⟩, rfl, List.prefix_rfl⟩
      rw [List.getElem?_set_ne (Ne.symm same), here]
  | print container text =>
    cases stepped
    exact ⟨thread, member, rfl, List.prefix_rfl⟩
  | close session =>
    cases stepped
    exact ⟨thread, member, rfl, List.prefix_rfl⟩
  | forward index =>
    obtain ⟨_, _, _, _, -, -, -, rfl⟩ := forward_cases stepped
    exact ⟨thread, member, rfl, List.prefix_rfl⟩
  | finish index =>
    obtain ⟨_, -, -, rfl⟩ := finish_cases stepped
    exact ⟨thread, member, rfl, List.prefix_rfl⟩

theorem run_keeps_thread (run : Run (CarefulSteps dispatcher codec) daemon labels after)
    (member : thread ∈ daemon.threads) :
    ∃ later ∈ after.threads, later.origin = thread.origin ∧ thread.history <+: later.history := by
  induction run generalizing thread with
  | refl daemon => exact ⟨thread, member, rfl, List.prefix_rfl⟩
  | next head _ ih =>
    obtain ⟨mid, present, origin, front⟩ := step_keeps_thread head.1 member
    obtain ⟨later, there, origin', front'⟩ := ih present
    exact ⟨later, there, origin'.trans origin, front.trans front'⟩

/-- The server stays tracked up to the end, or up to a state in which the container that it is tracked
to has been removed. -/
theorem Sound.tracked_along (sound : daemon.Sound) (run : Run (CarefulSteps dispatcher codec) daemon labels after)
    (tracked : daemon.world.tracked.lookup serverId = some containerId) :
    after.Holds serverId containerId ∨
      ∃ first rest mid current, labels = first ++ rest ∧ Run (CarefulSteps dispatcher codec) daemon first mid ∧
        Run (CarefulSteps dispatcher codec) mid rest after ∧ mid.Holds serverId containerId ∧
        mid.world.tracked.lookup serverId = some current ∧ current ∈ mid.world.removed := by
  induction run generalizing containerId with
  | refl daemon => exact .inl ⟨containerId, tracked, .inl rfl⟩
  | @next daemon label mid labels after head tail ih =>
    by_cases gone : containerId ∈ daemon.world.removed
    · exact .inr ⟨[], label :: labels, daemon, containerId, rfl, .refl daemon, .next head tail,
        ⟨containerId, tracked, .inl rfl⟩, tracked, gone⟩
    · obtain ⟨current, still, origin⟩ := sound.retains head.1 serverId containerId tracked gone
      -- what was acquired at `mid` is acquired ever after
      have carried {last : Daemon} {part : List Label} (run : Run (CarefulSteps dispatcher codec) mid part last)
          (holds : last.Holds serverId current) : last.Holds serverId containerId := by
        obtain ⟨latest, held, rfl | acquired⟩ := holds
        · refine ⟨latest, held, origin.imp id ?_⟩
          rintro ⟨thread, member, own, acquired⟩
          obtain ⟨later, there, same, front⟩ := run_keeps_thread run member
          obtain ⟨more, grown⟩ := front
          exact ⟨later, there, same ▸ own, grown ▸ acquired.append more⟩
        · exact ⟨latest, held, .inr acquired⟩
      rcases ih (sound.step head) still with kept | ⟨first, rest, last, latest, rfl, up, down, holds, facts⟩
      · exact .inl (carried tail kept)
      · exact .inr ⟨label :: first, rest, last, latest, rfl, .next head up, down, carried up holds, facts⟩

/-- The sample daemon through labels that are all careful. -/
def execCarefully (labels : List Label) (daemon : Daemon) : Option Daemon :=
  labels.foldlM (fun daemon label => if daemon.careful label then
    daemon.step Dispatcher.defaultDispatcher Dispatcher.unusedCodec label else none) daemon

/-- A `Start` tracks its container anew while a `Remove` that has resolved the same one is on its way. -/
def startDuringRemove : List Label :=
  [.receive (lifecycleCommand .start "s1" none), .call 0, .call 0, .receive (lifecycleCommand .remove "s1" none),
    .call 1, .call 0, .call 1, .call 1]

def startedDuringRemove : Daemon := (tracking.execCarefully startDuringRemove).getD tracking

/-- `Remove` of an older container by its id, while the server is tracked to `c1`. -/
def removeOther : List Label := [.receive (lifecycleCommand .remove "s1" (some "c0")), .call 0]

/-- `Remove` of the tracked container, with a `Create` before it forgets the server. -/
def createDuringRemove : List Label :=
  [.receive (lifecycleCommand .remove "s1" none), .call 0, .call 0,
    .receive { lifecycleCommand .create "s1" none with
      spec := some ⟨"sky-s1", "game", [], [], "", [], [], 0, 0, ∅⟩ }, .call 1, .call 1]

end Daemon
end SkyDaemon.Agent
