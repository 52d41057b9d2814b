import SkyDaemon.Agent.Handlers

/-! The order in which a command touches what it shares with other commands: after
which of its own calls it changes the tracked containers and the consoles. -/
namespace SkyDaemon.Agent
open Protocol Program

abbrev CallHistory := List (Exchange Call Call.Response)

/-- How far a command has come in opening a console. -/
inductive Stage where
  | idle
  /-- No console was active. -/
  | checked (serverId : String)
  | attached (containerId : String) (session : SessionId)
  /-- The session is in the map and its pump not yet spawned. -/
  | installed (serverId : String) (session : SessionId)
  deriving DecidableEq, Repr

def Stage.after : Exchange Call Call.Response → Stage
  | ⟨.consolesContains serverId, false⟩ => .checked serverId
  | ⟨.runtime (.attach containerId), .ok session⟩ => .attached containerId session
  | ⟨.consolesInsert serverId session, _⟩ => .installed serverId session
  | _ => .idle

/-- The last call decides the stage. -/
def stage (history : CallHistory) : Stage := (history.getLast?.map Stage.after).getD .idle

@[simp] theorem stage_append (history : CallHistory) (exchange : Exchange Call Call.Response) :
    stage (history ++ [exchange]) = .after exchange := by
  simp [stage]

/-- The command has created or started the container. -/
def Acquired (history : CallHistory) (containerId : String) : Prop :=
  (∃ spec, (⟨.runtime (.create spec), .ok containerId⟩ : Exchange Call Call.Response) ∈ history) ∨
    (⟨.runtime (.start containerId), .ok ()⟩ : Exchange Call Call.Response) ∈ history

theorem Acquired.append (acquired : Acquired history containerId) (more : CallHistory) :
    Acquired (history ++ more) containerId := by
  rcases acquired with ⟨spec, created⟩ | started
  · exact .inl ⟨spec, List.mem_append_left more created⟩
  · exact .inr (List.mem_append_left more started)

/-- The command has looked for its container, and done nothing else so far. -/
inductive Aims (cmd : CommandPayload) : CallHistory → String → Prop where
  | named (given : cmd.containerId = some containerId) : Aims cmd [] containerId
  | looked (unnamed : cmd.containerId = none) : Aims cmd [⟨.trackedGet cmd.serverId, some containerId⟩] containerId

/-- The command has just removed the container. -/
def Removed (history : CallHistory) (containerId : String) : Prop :=
  ∃ before, history = before ++ [⟨.runtime (.remove containerId), .ok ()⟩]

/-- What a command has done before a call that changes what is shared. -/
def Permitted (cmd : CommandPayload) (history : CallHistory) : Call → Prop
  | .trackedInsert serverId containerId => serverId = cmd.serverId ∧ Acquired history containerId
  | .trackedRemove serverId =>
      serverId = cmd.serverId ∧ cmd.action = .remove ∧ ∃ containerId, Removed history containerId
  | .trackedReconcile _ => False
  | .consolesContains serverId => serverId = cmd.serverId
  | .runtime (.remove containerId) => cmd.action = .remove ∧ Aims cmd history containerId
  | .runtime (.attach _) => stage history = .checked cmd.serverId
  | .consolesInsert serverId session =>
      serverId = cmd.serverId ∧ ∃ containerId, stage history = .attached containerId session
  | .spawnPump serverId session => stage history = .installed serverId session
  | .consolesRemove serverId => serverId = cmd.serverId ∧ cmd.action = .remove
  | _ => True

/-- A command that has attached goes on to install the session, and then to pump it. -/
def Continues (cmd : CommandPayload) (history : CallHistory) (call : Call) : Prop :=
  match stage history with
  | .attached _ session => call = .consolesInsert cmd.serverId session
  | .installed serverId session => call = .spawnPump serverId session
  | _ => True

structure Conduct (cmd : CommandPayload) (history : CallHistory) (call : Call) : Prop where
  permitted : Permitted cmd history call
  continues : Continues cmd history call

theorem Continues.of_idle {call : Call} (idle : stage history = .idle) : Continues cmd history call := by
  unfold Continues
  rw [idle]
  trivial

theorem Continues.of_checked {call : Call} (checked : stage history = .checked serverId) :
    Continues cmd history call := by
  unfold Continues
  rw [checked]
  trivial

/-- Calls that neither open, list nor close a console. -/
def Call.LeavesConsoles : Call → Prop
  | .consolesContains _ | .consolesInsert _ _ | .consolesRemove _ | .spawnPump _ _
  | .runtime (.attach _) => False
  | _ => True

/-- Of these, the calls that leave the tracked map alone and remove no container. -/
def Call.Plain : Call → Prop
  | .trackedInsert _ _ | .trackedRemove _ | .trackedReconcile _ | .runtime (.remove _) => False
  | other => other.LeavesConsoles

theorem Call.Plain.permitted {call : Call} (plain : call.Plain) : Permitted cmd history call := by
  cases call with
  | runtime operation => cases operation <;> first | exact plain.elim | trivial
  | _ => first | exact plain.elim | trivial

theorem Call.Plain.after {exchange : Exchange Call Call.Response} (plain : exchange.1.Plain) :
    Stage.after exchange = .idle := by
  obtain ⟨call, answer⟩ := exchange
  cases call with
  | runtime operation => cases operation <;> first | exact plain.elim | rfl
  | _ => first | exact plain.elim | rfl

def AllPlain (history : CallHistory) : Prop := ∀ exchange ∈ history, exchange.1.Plain

theorem AllPlain.nil : AllPlain [] := fun _ member => nomatch member

theorem AllPlain.idle (plain : AllPlain history) : stage history = .idle := by
  unfold stage
  cases last : history.getLast? with
  | none => rfl
  | some exchange => exact (plain exchange (List.mem_of_getLast? last)).after

theorem Aims.idle (aims : Aims cmd history containerId) : stage history = .idle := by
  cases aims <;> rfl

/-- A command that has just resolved its container by a call has asked the map. -/
theorem Aims.of_append {exchange : Exchange Call Call.Response} (aims : Aims cmd (history ++ [exchange]) containerId) :
    history = [] ∧ exchange = ⟨.trackedGet cmd.serverId, some containerId⟩ := by
  generalize made : history ++ [exchange] = whole at aims
  cases aims with
  | named given => simp at made
  | looked unnamed =>
    have same : history ++ [exchange] = [] ++ [⟨.trackedGet cmd.serverId, some containerId⟩] := made
    obtain ⟨front, last⟩ := List.append_inj' same rfl
    exact ⟨front, List.singleton_inj.mp last⟩

theorem AllPlain.conduct (plain : AllPlain history) {call : Call} (calls : call.Plain) :
    Conduct cmd history call :=
  ⟨calls.permitted, .of_idle plain.idle⟩

/-- A handler that leaves the shared state alone conducts itself. -/
theorem conduct_of_plain {program : Task α} (all : program.All Call.Plain) (plain : AllPlain history) :
    program.Meets (Conduct cmd) (fun later _ => AllPlain later) history :=
  all.meets (fun _ _ plain calls => AllPlain.conduct plain calls) plain

namespace Dispatcher

theorem containerFor_conduct (cmd : CommandPayload) : (containerFor cmd).Meets (Conduct cmd) (Aims cmd) [] := by
  unfold containerFor
  cases given : cmd.containerId with
  | some id => exact .named given
  | none =>
    refine ⟨⟨trivial, trivial⟩, fun known => ?_⟩
    cases known with
    | none => trivial
    | some id => exact .looked given

theorem create_conduct (cmd : CommandPayload) :
    (create cmd).Meets (Conduct cmd) (fun _ _ => True) [] := by
  unfold create
  cases cmd.spec with
  | none => trivial
  | some spec =>
    refine ⟨⟨trivial, trivial⟩, fun created => ?_⟩
    cases created with
    | error message => trivial
    | ok id =>
      have acquired : Acquired [⟨.runtime (.create spec), .ok id⟩] id := .inl ⟨spec, List.mem_singleton_self _⟩
      exact ⟨⟨⟨rfl, acquired⟩, trivial⟩, fun _ => trivial⟩

theorem startConsoleStream_conduct {history : CallHistory} (idle : stage history = .idle) :
    (startConsoleStream cmd.serverId containerId).Meets (Conduct cmd) (fun _ _ => True) history := by
  refine ⟨⟨rfl, .of_idle idle⟩, fun active => ?_⟩
  cases active with
  | true => trivial
  | false =>
    have checked := stage_append history ⟨.consolesContains cmd.serverId, false⟩
    refine ⟨⟨checked, .of_checked checked⟩, fun attached => ?_⟩
    cases attached with
    | error message => trivial
    | ok session =>
      refine ⟨⟨⟨rfl, containerId, stage_append _ _⟩, ?_⟩, fun _ => ⟨⟨stage_append _ _, ?_⟩, fun _ => trivial⟩⟩
      · unfold Continues
        rw [stage_append]
        rfl
      · unfold Continues
        rw [stage_append]
        rfl

theorem start_conduct (cmd : CommandPayload) :
    (start cmd).Meets (Conduct cmd) (fun _ _ => True) [] := by
  apply (containerFor_conduct cmd).bind
  intro history id aims
  refine ⟨⟨trivial, .of_idle aims.idle⟩, fun started => ?_⟩
  cases started with
  | error message => trivial
  | ok _ =>
    have acquired : Acquired (history ++ [⟨.runtime (.start id), .ok ()⟩]) id :=
      .inr (List.mem_append_right history (List.mem_singleton_self _))
    refine ⟨⟨⟨rfl, acquired⟩, .of_idle (stage_append _ _)⟩, fun _ => ?_⟩
    refine ⟨⟨trivial, .of_idle (stage_append _ _)⟩, fun _ => ?_⟩
    exact startConsoleStream_conduct (stage_append _ _)

theorem remove_conduct (cmd : CommandPayload) (action : cmd.action = .remove) :
    (remove cmd).Meets (Conduct cmd) (fun _ _ => True) [] := by
  apply (containerFor_conduct cmd).bind
  intro history id aims
  refine ⟨⟨⟨action, aims⟩, .of_idle aims.idle⟩, fun result => ?_⟩
  cases result with
  | error message => trivial
  | ok _ =>
    have gone : Removed (history ++ [⟨.runtime (.remove id), .ok ()⟩]) id := ⟨history, rfl⟩
    refine ⟨⟨⟨rfl, action, id, gone⟩, .of_idle (stage_append _ _)⟩, fun _ => ?_⟩
    exact ⟨⟨⟨rfl, action⟩, .of_idle (stage_append _ _)⟩, fun _ => trivial⟩

variable (dispatcher : Dispatcher) (codec : Base64)

/-- Every action but these three leaves the maps and the consoles alone. -/
theorem handleInner_plain (cmd : CommandPayload) (other : cmd.action ∉ [.create, .start, .remove]) :
    (dispatcher.handleInner codec cmd).All Call.Plain := by
  refine (dispatcher.handleInner_calls codec cmd).mono fun call may => ?_
  cases call with
  | runtime operation => cases operation <;> simp_all [MayCall, Call.Plain, Call.LeavesConsoles]
  | _ => simp_all [MayCall, Call.Plain, Call.LeavesConsoles]

theorem handleInner_conduct (cmd : CommandPayload) :
    (dispatcher.handleInner codec cmd).Meets (Conduct cmd) (fun _ _ => True) [] := by
  by_cases isCreate : cmd.action = .create
  · simp only [handleInner, isCreate]
    exact (create_conduct cmd).bind fun _ _ _ => trivial
  by_cases isStart : cmd.action = .start
  · simp only [handleInner, isStart]
    exact (start_conduct cmd).bind fun _ _ _ => trivial
  by_cases isRemove : cmd.action = .remove
  · simp only [handleInner, isRemove]
    exact (remove_conduct cmd isRemove).bind fun _ _ _ => trivial
  · have other : cmd.action ∉ [.create, .start, .remove] := by simp [isCreate, isStart, isRemove]
    exact (conduct_of_plain (dispatcher.handleInner_plain codec cmd other) .nil).weaken fun _ _ _ => trivial

/-- Every command conducts itself, whatever its fields and the answers it gets. -/
theorem handle_conduct (cmd : CommandPayload) :
    (dispatcher.handle codec cmd).Meets (Conduct cmd) (fun _ _ => True) [] := by
  have nothing : ∀ (_ : CallHistory) (_ : Exchange Call Call.Response), True → True := fun _ _ => id
  exact (Meets.attempt nothing trivial (dispatcher.handleInner_conduct codec cmd)).bind fun _ _ _ => trivial

end Dispatcher
end SkyDaemon.Agent
