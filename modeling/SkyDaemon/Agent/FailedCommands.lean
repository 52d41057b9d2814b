import SkyDaemon.Agent.Alone

/-! What a command that fails has done to the dispatcher's own state. Every handler changes the
maps and announces its outcome behind its last step that can fail. -/
namespace SkyDaemon.Agent
open Protocol Program

/-- Calls that change neither map and announce neither a state nor a backup. -/
def Call.Uncommitted : Call → Prop
  | .trackedInsert _ _ | .trackedRemove _ | .trackedReconcile _ | .consolesInsert _ _
  | .consolesRemove _ => False
  | .emit event => event.kind ≠ .stateChanged ∧ event.kind ≠ .backupDone
  | _ => True

namespace Dispatcher

theorem startConsoleStream_unfailing (serverId containerId : String) :
    (startConsoleStream serverId containerId).Unfailing := by
  intro active
  cases active with
  | true => trivial
  | false =>
    intro attached
    cases attached with
    | error message => trivial
    | ok session => exact fun _ _ => trivial

theorem commitsLast_ofExcept {result : Except String α} {f : α → Task β} (rest : ∀ value, (f value).Unfailing) :
    (ofExcept result >>= f).CommitsLast Call.Uncommitted := by
  cases result with
  | error message => trivial
  | ok value => exact (rest value).commitsLast

/-- The container is looked up and the runtime called; what follows a success cannot fail. -/
theorem lifecycle_commitsLast (cmd : CommandPayload) {ask : String → Task (Except String Unit)}
    {rest : String → Unit → Task Unit} (asks : ∀ id, (ask id).All Call.Uncommitted)
    (certain : ∀ id value, (rest id value).Unfailing) :
    (do let id ← containerFor cmd
        let value ← ofExcept (← ask id)
        rest id value).CommitsLast Call.Uncommitted := by
  apply (containerFor_all cmd trivial).commitsLast_bind
  intro id
  apply (asks id).commitsLast_bind
  intro answer
  exact commitsLast_ofExcept (certain id)

theorem create_commitsLast (cmd : CommandPayload) : (create cmd).CommitsLast Call.Uncommitted := by
  apply (all_required _ cmd.spec).commitsLast_bind
  intro spec
  exact .inl ⟨trivial, fun answer => commitsLast_ofExcept fun id _ => trivial⟩

theorem pullImage_commitsLast (cmd : CommandPayload) : (pullImage cmd).CommitsLast Call.Uncommitted := by
  have line : EventKind.consoleLine ≠ .stateChanged ∧ EventKind.consoleLine ≠ .backupDone := by decide
  apply (all_required _ cmd.image).commitsLast_bind
  intro image
  refine .inl ⟨line, fun _ => .inl ⟨trivial, fun answer => ?_⟩⟩
  exact commitsLast_ofExcept fun _ _ => trivial

theorem start_commitsLast (cmd : CommandPayload) : (start cmd).CommitsLast Call.Uncommitted :=
  lifecycle_commitsLast cmd (fun _ => ⟨trivial, fun _ => trivial⟩) fun id _ _ _ =>
    startConsoleStream_unfailing cmd.serverId id

theorem takeOffline_commitsLast (cmd : CommandPayload) {halt : String → Task (Except String Unit)}
    (halts : ∀ id, (halt id).All Call.Uncommitted) : (takeOffline cmd halt).CommitsLast Call.Uncommitted :=
  lifecycle_commitsLast cmd halts fun _ _ _ => trivial

theorem remove_commitsLast (cmd : CommandPayload) : (remove cmd).CommitsLast Call.Uncommitted :=
  lifecycle_commitsLast cmd (fun _ => ⟨trivial, fun _ => trivial⟩) fun _ _ _ _ => trivial

/-- The other actions change no map and announce neither a state nor a backup. -/
theorem handleInner_uncommitted (dispatcher : Dispatcher) (codec : Base64) (cmd : CommandPayload)
    (other : cmd.action ∉ [.create, .pullImage, .start, .stop, .kill, .remove, .backup]) :
    (dispatcher.handleInner codec cmd).All Call.Uncommitted := by
  refine (dispatcher.handleInner_calls codec cmd).mono fun call may => ?_
  cases call <;> simp_all [MayCall, Call.Uncommitted]

theorem handleInner_commitsLast (dispatcher : Dispatcher) (codec : Base64) (cmd : CommandPayload) :
    (dispatcher.handleInner codec cmd).CommitsLast Call.Uncommitted := by
  by_cases other : cmd.action ∉ [.create, .pullImage, .start, .stop, .kill, .remove, .backup]
  · exact (handleInner_uncommitted dispatcher codec cmd other).commitsLast
  unfold handleInner
  cases action : cmd.action with
  | create => exact (create_commitsLast cmd).bind_unfailing fun _ => trivial
  | pullImage => exact (pullImage_commitsLast cmd).bind_unfailing fun _ => trivial
  | start => exact (start_commitsLast cmd).bind_unfailing fun _ => trivial
  | stop => exact .bind_unfailing (takeOffline_commitsLast cmd fun _ => ⟨trivial, fun _ => trivial⟩) fun _ => trivial
  | kill => exact .bind_unfailing (takeOffline_commitsLast cmd fun _ => ⟨trivial, fun _ => trivial⟩) fun _ => trivial
  | remove => exact (remove_commitsLast cmd).bind_unfailing fun _ => trivial
  | backup =>
    have files : ∀ operation : FsCall, Call.Uncommitted (.fs operation) := fun _ => trivial
    apply All.commitsLast_bind (createBackup_all dispatcher (files _) trivial (files _) fun _ =>
      ⟨files _, files _, files _, files _⟩)
    rintro ⟨filename, sizeBytes⟩
    exact .inr fun _ => trivial
  | _ => simp [action] at other

end Dispatcher

/-- The maps are as they were, and nothing was announced but console lines and the like. -/
structure Uncommitted (before after : World) : Prop where
  tracked : after.tracked = before.tracked
  consoles : after.consoles = before.consoles
  announced : ∃ added, after.events = before.events ++ added ∧ ∀ event ∈ added,
    event.payload.kind ≠ .stateChanged ∧ event.payload.kind ≠ .backupDone

theorem Uncommitted.refl (world : World) : Uncommitted world world :=
  ⟨rfl, rfl, [], (List.append_nil _).symm, nofun⟩

theorem Uncommitted.react {call : Call} (uncommitted : Uncommitted before world)
    (allowed : call.Uncommitted) (choice : Choice) :
    Uncommitted before (world.react choice call).2 := by
  obtain ⟨tracked, consoles, added, events, kinds⟩ := uncommitted
  refine ⟨?_, ?_, ?_⟩
  · rw [← tracked]
    cases call <;> first | rfl | exact allowed.elim
  · rw [← consoles]
    cases call <;> first | rfl | exact allowed.elim
  · cases call with
    | emit event =>
      refine ⟨added ++ [⟨event, none⟩], ?_, ?_⟩
      · rw [← List.append_assoc, ← events]
        rfl
      · intro other member
        rcases List.mem_append.mp member with earlier | last
        · exact kinds other earlier
        · rw [List.mem_singleton.mp last]
          exact allowed
    | _ => exact ⟨added, events, kinds⟩

/-- A command that is acked as failed leaves both maps as they were and has announced neither a
state nor a backup; its ack names the command and the error. -/
theorem failed_command_changes_nothing (dispatcher : Dispatcher) (codec : Base64) (cmd : CommandPayload)
    (world : World) (choices : Nat → Choice) : ∃ ack after,
    (dispatcher.handle codec cmd).execute World.react (.start world choices) = (.ok ack, after) ∧
    (ack.ok = false →
      after.world.tracked = world.tracked ∧ after.world.consoles = world.consoles ∧
      (∃ added, after.world.events = world.events ++ added ∧ ∀ event ∈ added,
        event.payload.kind ≠ .stateChanged ∧ event.payload.kind ≠ .backupDone) ∧
      ack.commandId = cmd.commandId ∧ (∃ message, ack.error = some message) ∧ ack.result = none) := by
  refine ⟨_, _, dispatcher.handle_run codec cmd World.react _, ?_⟩
  intro rejected
  cases outcome : ((dispatcher.handleInner codec cmd).execute World.react (.start world choices)).1 with
  | ok result =>
    rw [outcome] at rejected
    contradiction
  | error message =>
    have keeps (course : WorldCourse) (call : Call) (allowed : call.Uncommitted)
        (kept : Uncommitted world course.world) : Uncommitted world (course.after World.react call).world :=
      kept.react allowed (course.coming 0)
    have kept := execute_failed_keeps (dispatcher.handleInner_commitsLast codec cmd) keeps
      (Uncommitted.refl world) outcome
    exact ⟨kept.tracked, kept.consoles, kept.announced, rfl, ⟨message, rfl⟩, rfl⟩

/-- The registry refuses the image. -/
def refusedPull : Choice where
  answer
    | .runtime (.pull _) => .error "pull access denied for game, repository does not exist"
    | other => willing.answer other
  gone := []
  written := 0

def pullCommand : CommandPayload := { lifecycleCommand .pullImage "s1" none with image := some "game" }

/-- The console was told of the attempt, and nothing else has happened. -/
theorem refused_pull_changes_nothing : ∃ ack after,
    (Dispatcher.defaultDispatcher.handle Dispatcher.unusedCodec pullCommand).execute World.react
      (.start Daemon.tracking.world fun _ => refusedPull) = (.ok ack, after) ∧
    ack.ok = false ∧ ack.error = some "pull access denied for game, repository does not exist" ∧
    after.world.events = [⟨⟨"s1", .consoleLine, "[sky] pulling image game…"⟩, none⟩] ∧
    after.world.tracked = Daemon.tracking.world.tracked ∧ after.world.consoles = Daemon.tracking.world.consoles := by
  obtain ⟨ack, after, handled, kept⟩ := failed_command_changes_nothing Dispatcher.defaultDispatcher
    Dispatcher.unusedCodec pullCommand Daemon.tracking.world fun _ => refusedPull
  have same := handled
  cases handled
  obtain ⟨tracked, consoles, -⟩ := kept rfl
  exact ⟨_, _, same, rfl, rfl, rfl, tracked, consoles⟩

end SkyDaemon.Agent
