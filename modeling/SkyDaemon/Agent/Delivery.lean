import SkyDaemon.Agent.Dispatcher
import SkyDaemon.Agent.Reconnect
import Mathlib.Data.List.Perm.Subperm

/-! What travels to the panel. Events queue in a channel that outlives the sessions and
leave it before their send is known to succeed; acks queue in a channel of the session
that received the command. -/
namespace SkyDaemon.Agent
open Protocol Transition

/-! ## Events -/

def Outgoing.event? : Outgoing → Option EventPayload
  | .event payload => some payload
  | _ => none

/-- What the dispatcher puts on its channel. -/
def Input.emitted : Input → List EventPayload
  | .emit payload => [payload]
  | _ => []

/-- An event was taken off the channel and its send failed. -/
def Input.loses : Input → Bool
  | .event false => true
  | _ => false

namespace Client

/-- The events sent over all sessions, in order. -/
def sentEvents (client : Client) : List EventPayload := client.sent.filterMap fun entry => entry.2.event?

/-- What one step does to the events: one may join the queue, or the first leaves it. -/
inductive MovesEvents (client : Client) (input : Input) (after : Client) : Prop where
  | queued (sent : after.sentEvents = client.sentEvents)
      (queue : after.events = client.events ++ input.emitted) (kept : input.loses = false)
  | sent (next : EventPayload) (queue : client.events = next :: after.events)
      (sent : after.sentEvents = client.sentEvents ++ [next]) (silent : input.emitted = [])
      (kept : input.loses = false)
  | lost (next : EventPayload) (queue : client.events = next :: after.events)
      (sent : after.sentEvents = client.sentEvents) (silent : input.emitted = [])
      (loses : input.loses = true)

theorem MovesEvents.of_same {client after : Client} (sent : after.sent = client.sent)
    (queue : after.events = client.events) (silent : input.emitted = []) (kept : input.loses = false) :
    MovesEvents client input after := by
  refine .queued ?_ ?_ kept
  · rw [sentEvents, sent, sentEvents]
  · rw [queue, silent, List.append_nil]

/-- A send of anything but an event. -/
theorem MovesEvents.of_send {client base : Client} (sent : base.sent = client.sent)
    (queue : base.events = client.events) (other : payload.event? = none)
    (silent : input.emitted = []) (kept : input.loses = false) (delivered : Bool) :
    MovesEvents client input (base.send payload delivered) := by
  cases delivered with
  | false => exact .of_same sent queue silent kept
  | true =>
    refine .queued ?_ ?_ kept
    · simp [sentEvents, send, record, sent, other]
    · rw [silent, List.append_nil]
      exact queue

theorem events_cases {client after : Client}
    (stepped : client.step serde prims clock input = some after) : MovesEvents client input after := by
  cases step_moves stepped with
  | cancel | connected | refused | closed | failed | silent | spawned | ignored | left | stopped | wake | answered
  | unheard => exact .of_same rfl rfl rfl rfl
  | hello greeting delivered => refine .of_send ?_ ?_ ?_ ?_ ?_ delivered <;> rfl
  | tick serving delivered => refine .of_send ?_ ?_ ?_ ?_ ?_ delivered <;> rfl
  | ack serving queue delivered => refine .of_send ?_ ?_ ?_ ?_ ?_ delivered <;> rfl
  | event serving queue delivered =>
    cases delivered with
    | true =>
      refine .sent _ queue ?_ rfl rfl
      simp [sentEvents, send, record, Outgoing.event?]
    | false => exact .lost _ queue rfl rfl rfl
  | emit event => exact .queued rfl rfl rfl

theorem MovesEvents.kept {client after : Client} (moves : MovesEvents client input after)
    (kept : input.loses = false) :
    after.sentEvents ++ after.events = client.sentEvents ++ client.events ++ input.emitted := by
  cases moves with
  | queued sent queue => rw [sent, queue, List.append_assoc]
  | sent next queue sent silent => rw [sent, queue, silent, List.append_nil, List.append_assoc, List.singleton_append]
  | lost next queue sent silent loses =>
    rw [kept] at loses
    contradiction

theorem MovesEvents.length {client after : Client} (moves : MovesEvents client input after) :
    (after.sentEvents ++ after.events).length + input.loses.toNat =
      (client.sentEvents ++ client.events).length + input.emitted.length := by
  cases moves with
  | queued sent queue kept =>
    simp only [sent, queue, kept, List.length_append, Bool.toNat_false]
    omega
  | sent next queue sent silent kept =>
    simp only [sent, queue, silent, kept, List.length_append, List.length_cons, List.length_nil, Bool.toNat_false]
    omega
  | lost next queue sent silent loses =>
    simp only [sent, queue, silent, loses, List.length_append, List.length_cons, List.length_nil, Bool.toNat_true]
    omega

end Client

/-- The events of a run, in the order in which the dispatcher emits them. -/
def emittedEvents (labels : List (Clock × Input)) : List EventPayload :=
  labels.flatMap fun label => label.2.emitted

theorem emittedEvents_cons (label : Clock × Input) (labels : List (Clock × Input)) :
    emittedEvents (label :: labels) = label.2.emitted ++ emittedEvents labels := rfl

namespace Client
variable {client after : Client}

theorem events_run_kept (run : Run (Steps serde prims) client labels after)
    (kept : ∀ label ∈ labels, label.2.loses = false) :
    after.sentEvents ++ after.events = client.sentEvents ++ client.events ++ emittedEvents labels := by
  induction run with
  | refl client => simp [emittedEvents]
  | next head _ ih =>
    rw [ih fun label member => kept label (List.mem_cons_of_mem _ member),
      (events_cases head).kept (kept _ List.mem_cons_self), emittedEvents_cons, List.append_assoc]

/-- Every failed send of an event makes the events known to the client one fewer. -/
theorem events_run_length (run : Run (Steps serde prims) client labels after) :
    (after.sentEvents ++ after.events).length + (labels.map fun label => label.2.loses.toNat).sum =
      (client.sentEvents ++ client.events).length + (emittedEvents labels).length := by
  induction run with
  | refl client => simp [emittedEvents]
  | next head _ ih =>
    have moved := (events_cases head).length
    simp only [List.map_cons, List.sum_cons, emittedEvents_cons, List.length_append] at ih moved ⊢
    omega

/-- What was sent, followed by what is queued, is what the dispatcher emitted, exactly as
long as no send of an event has failed: such an event is in neither. -/
theorem events_delivered_iff (serde : Serde) (prims : Primitives) (nodeToken : String)
    (labels : List (Clock × Input)) (client : Client)
    (run : Run (Steps serde prims) (Client.start nodeToken) labels client) :
    client.sentEvents ++ client.events = emittedEvents labels ↔
      ∀ label ∈ labels, label.2.loses = false := by
  constructor
  · intro whole label member
    have lengths := events_run_length run
    rw [whole] at lengths
    have counted := List.le_sum_of_mem (List.mem_map_of_mem (f := fun label : Clock × Input =>
      label.2.loses.toNat) member)
    have nothing : (Client.start nodeToken).sentEvents ++ (Client.start nodeToken).events = [] := rfl
    rw [nothing, List.length_nil] at lengths
    cases loses : label.2.loses with
    | false => rfl
    | true =>
      simp only [loses, Bool.toNat_true] at counted
      omega
  · intro kept
    exact events_run_kept run kept

def stateEvent (state : String) : EventPayload := ⟨"s1", .stateChanged, state⟩

/-- A state change is sent over the first connection; the next one waits. -/
def sendingRun : List (Clock × Input) :=
  [.emit (stateEvent "running"), .dial true, .hello true, .event true, .emit (stateEvent "offline")].map
    (capturedClock 0, ·)

/-- The process that shares its secret with the panel of the captured command. -/
def captured (labels : List (Clock × Input)) : Option Client :=
  labels.foldlM (fun client label => client.step capturedSerde capturedPrimitives label.1 label.2)
    (Client.start "node-secret")

theorem captured_run (executed : captured labels = some client) :
    Run (Steps capturedSerde capturedPrimitives) (Client.start "node-secret") labels client :=
  .of_foldlM executed

theorem sent_event_delivered : ∃ client,
    Run (Steps capturedSerde capturedPrimitives) (Client.start "node-secret") sendingRun client ∧
      client.sentEvents = [stateEvent "running"] ∧ client.events = [stateEvent "offline"] ∧
      client.sentEvents ++ client.events = emittedEvents sendingRun := by
  have run := captured_run (show captured sendingRun = some _ from rfl)
  refine ⟨_, run, rfl, rfl, ?_⟩
  exact (events_delivered_iff capturedSerde capturedPrimitives "node-secret" sendingRun _ run).mpr (by decide)

/-- The connection fails while the event is being sent. -/
def losingRun : List (Clock × Input) :=
  [.emit (stateEvent "running"), .dial true, .hello true, .event false].map (capturedClock 0, ·)

theorem failed_send_loses_event : ∃ client,
    Run (Steps capturedSerde capturedPrimitives) (Client.start "node-secret") losingRun client ∧
      emittedEvents losingRun = [stateEvent "running"] ∧ client.sentEvents = [] ∧ client.events = [] := by
  exact ⟨_, captured_run (show captured losingRun = some _ from rfl), rfl, rfl, rfl⟩

end Client

/-! ## Acks -/

/-- The ack that a command's task ends with names the command. -/
theorem Dispatcher.handle_commandId (dispatcher : Dispatcher) (codec : Base64) (cmd : CommandPayload) :
    (dispatcher.handle codec cmd).Meets (fun _ _ => True) (fun _ ack => ack.commandId = cmd.commandId) [] := by
  apply ((Program.all_true _).meets (fun _ _ _ _ => trivial) (by simp)).bind
  intro later result _
  cases result <;> rfl

/-- A task that finishes while its connection lasts queues the ack that the dispatcher made. -/
theorem Client.finish_queues_ack {dispatcher : Dispatcher} {codec : Base64} {client : Client}
    {task : Running} {ack : AckPayload} {made : List (Program.Exchange Call Call.Response)}
    (found : client.running[index]? = some task) (ran : (dispatcher.handle codec task.cmd).Ran made (.ok ack))
    (listens : client.listens task.connection = true) :
    client.step serde prims clock (.finish index ack.ok ack.error ack.result) = some { client with
      running := client.running.eraseIdx index
      acks := client.acks ++ [ack] } := by
  have names : ack.commandId = task.cmd.commandId :=
    (Dispatcher.handle_commandId dispatcher codec task.cmd).ran ran
  have heard : ({ client with running := client.running.eraseIdx index } : Client).listens task.connection = true :=
    listens
  simp only [step, found, heard, if_true, ← names]

def Outgoing.ackedId? : Outgoing → Option String
  | .ack payload => some payload.commandId
  | _ => none

namespace Client

/-- The ids of the acks that were sent on a connection. -/
def ackedOn (client : Client) (connection : Nat) : List String :=
  client.sent.filterMap fun entry => if entry.1 = connection then entry.2.ackedId? else none

/-- The ids of the commands of a connection whose tasks have not finished. -/
def runningOn (client : Client) (connection : Nat) : List String :=
  client.running.filterMap fun task => if task.connection = connection then some task.cmd.commandId else none

/-- The ids of the acks that wait to be sent on a connection. -/
def waitingOn (client : Client) (connection : Nat) : List String :=
  if client.listens connection then client.acks.map AckPayload.commandId else []

/-- What one step does to the commands and their acks. -/
inductive MovesAcks (client after : Client) : Prop where
  | quiet (connection : after.connection = client.connection)
      (listens : ∀ k, after.listens k = client.listens k) (acks : after.acks = client.acks)
      (running : after.running = client.running) (handled : after.handled = client.handled)
      (acked : ∀ k, after.ackedOn k = client.ackedOn k)
  | ended (connection : after.connection = client.connection) (listens : ∀ k, after.listens k = false)
      (running : after.running = client.running) (handled : after.handled = client.handled)
      (acked : ∀ k, after.ackedOn k = client.ackedOn k)
  | opened (connection : after.connection = client.connection + 1)
      (listens : ∀ k, after.listens k = (k == client.connection + 1)) (acks : after.acks = [])
      (running : after.running = client.running) (handled : after.handled = client.handled)
      (acked : ∀ k, after.ackedOn k = client.ackedOn k)
  | spawned (dispatch : Dispatch) (connection : after.connection = client.connection)
      (listens : ∀ k, after.listens k = client.listens k) (acks : after.acks = client.acks)
      (running : after.running = client.running ++ [⟨client.connection, dispatch.cmd⟩])
      (handled : after.handled = client.handled ++ [dispatch])
      (acked : ∀ k, after.ackedOn k = client.ackedOn k)
  | acked (ack : AckPayload) (connection : after.connection = client.connection)
      (listens : ∀ k, after.listens k = (k == client.connection))
      (listened : ∀ k, client.listens k = (k == client.connection))
      (queue : client.acks = ack :: after.acks)
      (running : after.running = client.running) (handled : after.handled = client.handled)
      (acked : ∀ k, after.ackedOn k =
        client.ackedOn k ++ if client.connection = k then [ack.commandId] else [])
  | finished (index : Nat) (task : Running) (ack : AckPayload) (connection : after.connection = client.connection)
      (listens : ∀ k, after.listens k = client.listens k)
      (found : client.running[index]? = some task) (own : ack.commandId = task.cmd.commandId)
      (acks : after.acks = client.acks ++ if client.listens task.connection then [ack] else [])
      (running : after.running = client.running.eraseIdx index)
      (handled : after.handled = client.handled) (acked : ∀ k, after.ackedOn k = client.ackedOn k)

theorem MovesAcks.of_send {client base : Client} (connection : base.connection = client.connection)
    (listens : ∀ k, base.listens k = client.listens k) (acks : base.acks = client.acks)
    (running : base.running = client.running) (handled : base.handled = client.handled)
    (sent : base.sent = client.sent) (other : payload.ackedId? = none) (delivered : Bool) :
    MovesAcks client (base.send payload delivered) := by
  cases delivered with
  | true =>
    refine .quiet connection listens acks running handled fun k => ?_
    simp [ackedOn, send, record, sent, other]
  | false =>
    refine .ended connection (fun _ => rfl) running handled fun k => ?_
    simp [ackedOn, send, endSession, sent]

theorem MovesAcks.endSession (client : Client) : MovesAcks client client.endSession :=
  .ended rfl (fun _ => rfl) rfl rfl fun _ => rfl

theorem listens_serving {client : Client} (serving : client.phase = .serving session) (k : Nat) :
    client.listens k = (k == client.connection) := by
  rw [listens, serving]

theorem acks_cases {client after : Client}
    (stepped : client.step serde prims clock input = some after) : MovesAcks client after := by
  cases step_moves stepped with
  | cancel | ignored | emit => exact .quiet rfl (fun _ => rfl) rfl rfl rfl fun _ => rfl
  | refused | stopped => exact .ended rfl (fun _ => rfl) rfl rfl fun _ => rfl
  | closed | failed | left => exact .endSession client
  | connected => exact .opened rfl (fun _ => rfl) rfl rfl rfl fun _ => rfl
  | hello greeting delivered =>
    refine .of_send ?_ ?_ ?_ ?_ ?_ ?_ ?_ delivered <;> first | rfl | skip
    intro k
    rw [listens_serving rfl, listens, greeting]
  | tick serving delivered => refine .of_send ?_ ?_ ?_ ?_ ?_ ?_ ?_ delivered <;> intros <;> rfl
  | event serving queue delivered => refine .of_send ?_ ?_ ?_ ?_ ?_ ?_ ?_ delivered <;> intros <;> rfl
  | @ack _ next rest serving queue delivered =>
    cases delivered with
    | true =>
      refine .acked next rfl (listens_serving serving) (listens_serving serving) queue rfl rfl fun k => ?_
      by_cases here : client.connection = k <;> simp [ackedOn, send, record, Outgoing.ackedId?, here]
    | false => exact .ended rfl (fun _ => rfl) rfl rfl fun _ => rfl
  | silent serving received =>
    refine .quiet rfl (fun k => ?_) rfl rfl rfl fun _ => rfl
    rw [listens_serving serving, listens_serving rfl]
  | spawned serving received =>
    refine .spawned _ rfl (fun k => ?_) rfl rfl rfl fun _ => rfl
    rw [listens_serving serving]
    rfl
  | wake =>
    refine .ended rfl (fun k => ?_) rfl rfl fun _ => rfl
    cases cancelled : client.cancelled <;> simp [listens]
  | answered found listened =>
    exact .finished _ _ _ rfl (fun _ => rfl) found rfl (by rw [if_pos listened]) rfl rfl fun _ => rfl
  | @unheard index ok error result task found gone =>
    exact .finished index task ⟨task.cmd.commandId, ok, error, result⟩ rfl (fun _ => rfl) found rfl
      (by rw [gone]; exact (List.append_nil _).symm) rfl rfl fun _ => rfl

end Client

/-- A client with every command it dispatched and the connection the command came on. -/
structure Ledger where
  client : Client
  dispatched : List (Nat × CommandPayload)

namespace Ledger

def start (nodeToken : String) : Ledger := ⟨Client.start nodeToken, []⟩

/-- The commands that a step hands to the dispatcher belong to the current connection. -/
def Steps (serde : Serde) (prims : Primitives) (ledger : Ledger) (label : Clock × Input) (after : Ledger) :
    Prop :=
  ledger.client.Steps serde prims label after.client ∧
    after.dispatched = ledger.dispatched ++
      (after.client.handled.drop ledger.client.handled.length).map fun dispatch =>
        (ledger.client.connection, dispatch.cmd)

def dispatchedOn (ledger : Ledger) (connection : Nat) : List String :=
  ledger.dispatched.filterMap fun entry => if entry.1 = connection then some entry.2.commandId else none

/-- Each dispatched command is accounted for at most once, and on the connection that is
up exactly once. -/
structure Balanced (ledger : Ledger) : Prop where
  later : ∀ k > ledger.client.connection,
    ledger.dispatchedOn k = [] ∧ ledger.client.ackedOn k = [] ∧ ledger.client.runningOn k = []
  bound : ∀ k id, (ledger.client.ackedOn k).count id + (ledger.client.waitingOn k).count id +
    (ledger.client.runningOn k).count id ≤ (ledger.dispatchedOn k).count id
  exact' : ∀ k id, ledger.client.listens k = true → (ledger.client.ackedOn k).count id +
    (ledger.client.waitingOn k).count id + (ledger.client.runningOn k).count id =
      (ledger.dispatchedOn k).count id

theorem Balanced.start (nodeToken : String) : (Ledger.start nodeToken).Balanced where
  later := fun _ _ => ⟨rfl, rfl, rfl⟩
  bound := fun _ _ => Nat.le_refl _
  exact' := fun _ _ _ => rfl

theorem waitingOn_eq {client after : Client} (listens : after.listens k = client.listens k)
    (acks : after.acks = client.acks) : after.waitingOn k = client.waitingOn k := by
  rw [Client.waitingOn, Client.waitingOn, listens, acks]

theorem waitingOn_ended {client : Client} (ended : client.listens k = false) : client.waitingOn k = [] := by
  simp [Client.waitingOn, ended]

theorem runningOn_eq {client after : Client} (running : after.running = client.running) (k : Nat) :
    after.runningOn k = client.runningOn k := by
  rw [Client.runningOn, running, Client.runningOn]

/-- A finished task is counted once among the running ones of its connection. -/
theorem count_runningOn_finished {client after : Client} (found : client.running[index]? = some task)
    (running : after.running = client.running.eraseIdx index) (k : Nat) (id : String) :
    (client.runningOn k).count id =
      (after.runningOn k).count id + if task.connection = k ∧ task.cmd.commandId = id then 1 else 0 := by
  obtain ⟨inside, rfl⟩ := List.getElem?_eq_some_iff.mp found
  have perm := (List.getElem_cons_eraseIdx_perm inside).symm
  rw [← running] at perm
  have same := (perm.filterMap fun task : Running =>
    if task.connection = k then some task.cmd.commandId else none).count_eq id
  change (client.runningOn k).count id = _ at same
  rw [same, List.filterMap_cons]
  by_cases here : client.running[index].connection = k
  · simp only [here, if_true, List.count_cons, true_and, beq_iff_eq]
    rfl
  · simp only [here, if_false, false_and, Nat.add_zero]
    rfl

theorem dispatchedOn_none {ledger after : Ledger}
    (log : after.dispatched = ledger.dispatched ++
      (after.client.handled.drop ledger.client.handled.length).map fun dispatch =>
        (ledger.client.connection, dispatch.cmd))
    (handled : after.client.handled = ledger.client.handled) (k : Nat) :
    after.dispatchedOn k = ledger.dispatchedOn k := by
  rw [handled, List.drop_length, List.map_nil, List.append_nil] at log
  rw [dispatchedOn, log, dispatchedOn]

theorem dispatchedOn_one {ledger after : Ledger}
    (log : after.dispatched = ledger.dispatched ++
      (after.client.handled.drop ledger.client.handled.length).map fun dispatch =>
        (ledger.client.connection, dispatch.cmd))
    (handled : after.client.handled = ledger.client.handled ++ [dispatch]) (k : Nat) :
    after.dispatchedOn k = ledger.dispatchedOn k ++
      if ledger.client.connection = k then [dispatch.cmd.commandId] else [] := by
  rw [handled, List.drop_left, List.map_singleton] at log
  rw [dispatchedOn, log, List.filterMap_append, ← dispatchedOn]
  by_cases here : ledger.client.connection = k <;> simp [here]

theorem runningOn_spawned {client after : Client}
    (running : after.running = client.running ++ [⟨client.connection, cmd⟩]) (k : Nat) :
    after.runningOn k = client.runningOn k ++ if client.connection = k then [cmd.commandId] else [] := by
  rw [Client.runningOn, running, List.filterMap_append, ← Client.runningOn]
  by_cases here : client.connection = k <;> simp [here]

/-- Only one connection is up. -/
theorem listens_unique {client : Client} (one : client.listens k = true) (other : client.listens l = true) :
    k = l := by
  cases phase : client.phase <;> simp_all [Client.listens]

theorem Balanced.step {ledger after : Ledger} (balanced : ledger.Balanced)
    (stepped : ledger.Steps serde prims label after) : after.Balanced := by
  obtain ⟨moved, log⟩ := stepped
  cases Client.acks_cases moved with
  | quiet connection listens acks running handled acked =>
    have same := dispatchedOn_none log handled
    constructor
    · intro k more
      rw [same, acked, runningOn_eq running]
      exact balanced.later k (connection ▸ more)
    · intro k id
      rw [same, acked, waitingOn_eq (listens k) acks, runningOn_eq running]
      exact balanced.bound k id
    · intro k id live
      rw [same, acked, waitingOn_eq (listens k) acks, runningOn_eq running]
      exact balanced.exact' k id (listens k ▸ live)
  | ended connection listens running handled acked =>
    have same := dispatchedOn_none log handled
    constructor
    · intro k more
      rw [same, acked, runningOn_eq running]
      exact balanced.later k (connection ▸ more)
    · intro k id
      have bound := balanced.bound k id
      rw [same, acked, waitingOn_ended (listens k), runningOn_eq running, List.count_nil]
      omega
    · intro k id live
      rw [listens] at live
      contradiction
  | opened connection listens acks running handled acked =>
    have same := dispatchedOn_none log handled
    have nothing (k : Nat) : after.client.waitingOn k = [] := by
      unfold Client.waitingOn
      rw [acks]
      split <;> rfl
    constructor
    · intro k more
      rw [same, acked, runningOn_eq running]
      exact balanced.later k (by omega)
    · intro k id
      have bound := balanced.bound k id
      rw [same, acked, nothing, runningOn_eq running, List.count_nil]
      omega
    · intro k id live
      rw [listens, beq_iff_eq] at live
      obtain ⟨none, none', none''⟩ := balanced.later k (by omega)
      rw [same, acked, nothing, runningOn_eq running, none, none', none'']
      rfl
  | spawned dispatch connection listens acks running handled acked =>
    have one := dispatchedOn_one log handled
    have started := runningOn_spawned running
    constructor
    · intro k more
      have other : ledger.client.connection ≠ k := by omega
      rw [one, acked, started, if_neg other, List.append_nil, List.append_nil]
      exact balanced.later k (connection ▸ more)
    · intro k id
      have bound := balanced.bound k id
      rw [one, acked, waitingOn_eq (listens k) acks, started, List.count_append, List.count_append]
      omega
    · intro k id live
      have equal := balanced.exact' k id (listens k ▸ live)
      rw [one, acked, waitingOn_eq (listens k) acks, started, List.count_append, List.count_append]
      omega
  | acked ack connection listens listened queue running handled acked =>
    have same := dispatchedOn_none log handled
    -- what leaves the channel is what was sent
    have moved (k : Nat) (id : String) :
        (after.client.ackedOn k).count id + (after.client.waitingOn k).count id =
          (ledger.client.ackedOn k).count id + (ledger.client.waitingOn k).count id := by
      rw [acked, Client.waitingOn, Client.waitingOn, listens, listened, queue]
      by_cases here : ledger.client.connection = k
      · simp only [here, beq_self_eq_true, if_true, List.map_cons, List.count_append, List.count_cons,
          List.count_nil]
        omega
      · simp [here, Ne.symm here]
    constructor
    · intro k more
      have other : ledger.client.connection ≠ k := by omega
      rw [same, acked, runningOn_eq running, if_neg other, List.append_nil]
      exact balanced.later k (connection ▸ more)
    · intro k id
      have bound := balanced.bound k id
      rw [same, runningOn_eq running, moved]
      exact bound
    · intro k id live
      rw [listens] at live
      rw [same, runningOn_eq running, moved]
      exact balanced.exact' k id (by rw [listened, live])
  | finished index task ack connection listens found own acks running handled acked =>
    have same := dispatchedOn_none log handled
    have finished := count_runningOn_finished found running
    have waits (k : Nat) (id : String) : (after.client.waitingOn k).count id =
        (ledger.client.waitingOn k).count id +
          if ledger.client.listens k = true ∧ task.connection = k ∧ task.cmd.commandId = id then 1 else 0 := by
      rw [Client.waitingOn, Client.waitingOn, listens, acks]
      cases live : ledger.client.listens k with
      | false => simp
      | true =>
        by_cases here : task.connection = k
        · simp [here, live, own, List.count_singleton]
        · have away : ledger.client.listens task.connection = false := by
            cases other : ledger.client.listens task.connection with
            | false => rfl
            | true => exact absurd (listens_unique other live) here
          simp [here, away]
    constructor
    · intro k more
      obtain ⟨none, none', none''⟩ := balanced.later k (connection ▸ more)
      refine ⟨(same k).trans none, (acked k).trans none', ?_⟩
      rw [List.eq_nil_iff_forall_not_mem]
      intro id member
      have counted := finished k id
      rw [none'', List.count_nil] at counted
      have positive := List.count_pos_iff.mpr member
      omega
    · intro k id
      have bound := balanced.bound k id
      rw [same, acked, waits]
      rw [finished k id] at bound
      split <;> split at bound <;> first | omega | simp_all
    · intro k id live
      rw [listens] at live
      have equal := balanced.exact' k id live
      rw [same, acked, waits]
      rw [finished k id] at equal
      simp only [live, true_and]
      omega

/-- Every run of the client can be kept a ledger of. -/
theorem run_of_client {before after : Client} (ledger : Ledger) (here : ledger.client = before)
    (run : Run (Client.Steps serde prims) before labels after) :
    ∃ later : Ledger, Run (Steps serde prims) ledger labels later ∧ later.client = after := by
  induction run generalizing ledger with
  | refl before => exact ⟨ledger, .refl ledger, here⟩
  | @next before label mid labels after head _ ih =>
    let next : Ledger := ⟨mid, ledger.dispatched ++
      (mid.handled.drop ledger.client.handled.length).map fun dispatch =>
        (ledger.client.connection, dispatch.cmd)⟩
    obtain ⟨later, rest, reached⟩ := ih next rfl
    exact ⟨later, .next ⟨here ▸ head, rfl⟩ rest, reached⟩

/-- While a session lasts, the commands received on its connection are those acked on
it, those whose ack waits to be sent, and those still running, each once. On no
connection is anything acked that was not received there, or more often. A command that
still runs on the connection will queue the ack its dispatcher ends with. -/
theorem acks_conserved (serde : Serde) (prims : Primitives) (nodeToken : String)
    (labels : List (Clock × Input)) (ledger : Ledger)
    (run : Run (Steps serde prims) (Ledger.start nodeToken) labels ledger) :
    (∀ session, ledger.client.phase.session = some session →
      (ledger.dispatchedOn ledger.client.connection).Perm
        (ledger.client.ackedOn ledger.client.connection ++ ledger.client.acks.map AckPayload.commandId ++
          ledger.client.runningOn ledger.client.connection)) ∧
    (∀ k, (ledger.client.ackedOn k).Subperm (ledger.dispatchedOn k)) ∧
    ∀ (dispatcher : Dispatcher) (codec : Base64) (clock : Clock) (index : Nat) (task : Running)
      (made : List (Program.Exchange Call Call.Response)) (ack : AckPayload),
      ledger.client.running[index]? = some task → ledger.client.listens task.connection = true →
      (dispatcher.handle codec task.cmd).Ran made (.ok ack) →
      ledger.client.step serde prims clock (.finish index ack.ok ack.error ack.result) =
        some { ledger.client with
          running := ledger.client.running.eraseIdx index
          acks := ledger.client.acks ++ [ack] } := by
  have balanced : ledger.Balanced :=
    run.invariant (fun balanced stepped => balanced.step stepped) (.start nodeToken)
  refine ⟨?_, ?_, ?_⟩
  · intro session live
    have listens : ledger.client.listens ledger.client.connection = true := by
      cases phase : ledger.client.phase <;> simp_all [Client.listens, Phase.session]
    rw [List.perm_iff_count]
    intro id
    have equal := balanced.exact' ledger.client.connection id listens
    rw [Client.waitingOn, if_pos listens] at equal
    rw [List.count_append, List.count_append]
    exact equal.symm
  · intro k
    rw [List.subperm_ext_iff]
    intro id _
    have bound := balanced.bound k id
    omega
  · intro dispatcher codec clock index task made ack found listens ran
    exact Client.finish_queues_ack found ran listens

/-- The captured command is received, its task finishes, and the ack goes out. -/
def ackingRun : List (Clock × Input) :=
  [Input.dial true, .hello true, .incoming (some (.ok (.text capturedText))), .finish 0 true none none,
    .ack true].map (capturedClock 1, ·)

theorem captured_command_acked : ∃ ledger,
    Run (Steps capturedSerde capturedPrimitives) (Ledger.start "node-secret") ackingRun ledger ∧
      ledger.client.ackedOn 1 = ["cmd-1"] ∧ (ledger.dispatchedOn 1).Perm ["cmd-1"] ∧
      (ledger.client.ackedOn 1).Subperm (ledger.dispatchedOn 1) := by
  have observed : (Client.captured ackingRun).map (fun client => (client.phase.session.isSome,
      client.connection, client.ackedOn 1, client.acks, client.runningOn 1)) =
        some (true, 1, ["cmd-1"], [], []) := by
    decide +kernel
  obtain ⟨client, executed, seen⟩ := Option.map_eq_some_iff.mp observed
  simp only [Prod.mk.injEq] at seen
  obtain ⟨live, current, acked, waiting, running⟩ := seen
  obtain ⟨session, live⟩ := Option.isSome_iff_exists.mp live
  obtain ⟨ledger, run, rfl⟩ := run_of_client (Ledger.start "node-secret") rfl (Client.captured_run executed)
  have settled := acks_conserved capturedSerde capturedPrimitives "node-secret" ackingRun ledger run
  have accounted := settled.1 session live
  rw [current, acked, waiting, running] at accounted
  exact ⟨ledger, run, acked, accounted, settled.2.1 1⟩

end Ledger
end SkyDaemon.Agent
