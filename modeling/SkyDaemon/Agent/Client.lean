import SkyDaemon.Foundation.Transition
import SkyDaemon.Agent.Session

/-! The daemon's connection loop: `client::run` dialing with backoff, and
`Session::run` as the select loop of one connection. One input is one resolved
await: a dial, a send, a received frame, a timer, a finished command task. Any
enabled branch may be taken, as `select!` chooses among the ready ones. -/
namespace SkyDaemon.Agent
open Protocol

def minBackoff : Nat := 1
def maxBackoff : Nat := 30

inductive Frame where
  | text (text : String)
  | close
  | other
  deriving DecidableEq, Repr

/-- Payloads that reached the wire. Hello and heartbeat contents are not tracked here. -/
inductive Outgoing where
  | hello
  | heartbeat
  | event (event : EventPayload)
  | ack (ack : AckPayload)
  deriving DecidableEq

inductive Phase where
  | dialing
  | greeting (session : Session)
  | serving (session : Session)
  | sleeping
  | stopped

/-- The session whose select loop is entered or about to be. -/
def Phase.session : Phase → Option Session
  | .greeting session | .serving session => some session
  | _ => none

/-- A spawned command task, with the number of the connection it arrived on. -/
structure Running where
  connection : Nat
  cmd : CommandPayload

structure Client where
  nodeToken : String
  phase : Phase
  cancelled : Bool
  backoff : Nat
  /-- Connections opened so far; the current one has this number. -/
  connection : Nat
  /-- The dispatcher's event channel, which outlives the sessions. -/
  events : List EventPayload
  /-- The current session's ack channel. -/
  acks : List AckPayload
  running : List Running
  /-- Everything sent successfully, oldest first, by connection. -/
  sent : List (Nat × Outgoing)
  /-- Every command handed to `Dispatcher::handle`, oldest first. -/
  handled : List Dispatch

def Client.start (nodeToken : String) : Client where
  nodeToken
  phase := .dialing
  cancelled := false
  backoff := minBackoff
  connection := 0
  events := []
  acks := []
  running := []
  sent := []
  handled := []

inductive Input where
  /-- The cancellation token fires. -/
  | cancel
  /-- `connect_async` resolves. -/
  | dial (connected : Bool)
  | hello (sent : Bool)
  | tick (sent : Bool)
  | event (sent : Bool)
  | ack (sent : Bool)
  /-- `ws.next()` yields the end of the stream, an error, or a frame. -/
  | incoming (frame : Option (Except String Frame))
  /-- A `ct.cancelled()` branch is taken. -/
  | cancelled
  /-- The backoff sleep ends. -/
  | wake
  /-- The spawned task at this position finishes and sends its ack. -/
  | finish (index : Nat) (ok : Bool) (error : Option String) (result : Option ActionResult)
  /-- The dispatcher or one of its pump tasks emits an event. -/
  | emit (event : EventPayload)

namespace Client

/-- The session returns; its ack channel is dropped with it. -/
def endSession (client : Client) : Client := { client with phase := .sleeping, acks := [] }

def record (client : Client) (payload : Outgoing) : Client :=
  { client with sent := client.sent ++ [(client.connection, payload)] }

/-- A send inside the select loop: its failure ends the session. -/
def send (client : Client) (payload : Outgoing) (sent : Bool) : Client :=
  if sent then client.record payload else client.endSession

def spawn (client : Client) (dispatch : Dispatch) : Client :=
  { client with
    running := client.running ++ [⟨client.connection, dispatch.cmd⟩]
    handled := client.handled ++ [dispatch] }

/-- Whether the ack channel of the given connection still has its receiver. -/
def listens (client : Client) (connection : Nat) : Bool :=
  match client.phase with
  | .greeting _ | .serving _ => connection == client.connection
  | _ => false

/-- `handle_incoming` from the select loop. -/
def receive (client : Client) (serde : Serde) (prims : Primitives) (clock : Clock)
    (session : Session) (text : String) : Client :=
  match session.handleIncoming serde prims clock text with
  | (.ok none, session) => { client with phase := .serving session }
  | (.ok (some dispatch), session) => { client with phase := .serving session }.spawn dispatch
  | (.error _, _) => client.endSession

/-- One step; `none` where the input is not what the loop waits for. -/
def step (serde : Serde) (prims : Primitives) (client : Client) (clock : Clock) :
    Input → Option Client
  | .cancel => some { client with cancelled := true }
  | .dial connected => match client.phase with
      | .dialing =>
          if connected then
            some { client with
              phase := .greeting (Session.new client.nodeToken)
              backoff := minBackoff
              connection := client.connection + 1
              acks := [] }
          else some { client with phase := .sleeping }
      | _ => none
  | .hello sent => match client.phase with
      | .greeting session =>
          some ({ client with phase := .serving session }.send .hello sent)
      | _ => none
  | .tick sent => match client.phase with
      | .serving _ => some (client.send .heartbeat sent)
      | _ => none
  | .event sent => match client.phase, client.events with
      -- the event leaves the queue before it is known whether the send succeeds
      | .serving _, next :: rest => some ({ client with events := rest }.send (.event next) sent)
      | _, _ => none
  | .ack sent => match client.phase, client.acks with
      | .serving _, next :: rest => some ({ client with acks := rest }.send (.ack next) sent)
      | _, _ => none
  | .incoming frame => match client.phase with
      | .serving session => match frame with
          | none | some (.error _) | some (.ok .close) => some client.endSession
          | some (.ok (.text text)) => some (client.receive serde prims clock session text)
          | some (.ok .other) => some client
      | _ => none
  | .cancelled => if client.cancelled then match client.phase with
      | .serving _ => some client.endSession
      | .sleeping => some { client with phase := .stopped }
      | _ => none
    else none
  | .wake => match client.phase with
      | .sleeping => some { client with
          backoff := min (client.backoff * 2) maxBackoff
          phase := if client.cancelled then .stopped else .dialing }
      | _ => none
  | .finish index ok error result => match client.running[index]? with
      | some task =>
          let client := { client with running := client.running.eraseIdx index }
          -- a failed send means that the connection went away
          some (if client.listens task.connection then
            { client with acks := client.acks ++ [⟨task.cmd.commandId, ok, error, result⟩] }
            else client)
      | none => none
  | .emit event => some { client with events := client.events ++ [event] }

/-- Everything a step can do, with what it requires of the client. -/
inductive Moves (serde : Serde) (prims : Primitives) (client : Client) (clock : Clock) : Input → Client → Prop where
  | cancel : Moves serde prims client clock .cancel { client with cancelled := true }
  | connected (dialing : client.phase = .dialing) :
      Moves serde prims client clock (.dial true) { client with
        phase := .greeting (Session.new client.nodeToken)
        backoff := minBackoff
        connection := client.connection + 1
        acks := [] }
  | refused (dialing : client.phase = .dialing) :
      Moves serde prims client clock (.dial false) { client with phase := .sleeping }
  | hello {session : Session} (greeting : client.phase = .greeting session) (sent : Bool) :
      Moves serde prims client clock (.hello sent) ({ client with phase := .serving session }.send .hello sent)
  | tick {session : Session} (serving : client.phase = .serving session) (sent : Bool) :
      Moves serde prims client clock (.tick sent) (client.send .heartbeat sent)
  | event {session : Session} {next : EventPayload} {rest : List EventPayload}
      (serving : client.phase = .serving session) (queue : client.events = next :: rest) (sent : Bool) :
      Moves serde prims client clock (.event sent) ({ client with events := rest }.send (.event next) sent)
  | ack {session : Session} {next : AckPayload} {rest : List AckPayload}
      (serving : client.phase = .serving session) (queue : client.acks = next :: rest) (sent : Bool) :
      Moves serde prims client clock (.ack sent) ({ client with acks := rest }.send (.ack next) sent)
  | closed {session : Session} {frame : Option (Except String Frame)} (serving : client.phase = .serving session)
      (ends : ∀ received, frame = some (.ok received) → received = .close) :
      Moves serde prims client clock (.incoming frame) client.endSession
  | failed {session next : Session} {text message : String} (serving : client.phase = .serving session)
      (received : session.handleIncoming serde prims clock text = (.error message, next)) :
      Moves serde prims client clock (.incoming (some (.ok (.text text)))) client.endSession
  | silent {session next : Session} {text : String} (serving : client.phase = .serving session)
      (received : session.handleIncoming serde prims clock text = (.ok none, next)) :
      Moves serde prims client clock (.incoming (some (.ok (.text text)))) { client with phase := .serving next }
  | spawned {session next : Session} {text : String} {dispatch : Dispatch}
      (serving : client.phase = .serving session)
      (received : session.handleIncoming serde prims clock text = (.ok (some dispatch), next)) :
      Moves serde prims client clock (.incoming (some (.ok (.text text))))
        ({ client with phase := .serving next }.spawn dispatch)
  | ignored {session : Session} (serving : client.phase = .serving session) :
      Moves serde prims client clock (.incoming (some (.ok .other))) client
  | left {session : Session} (serving : client.phase = .serving session) (cancelled : client.cancelled = true) :
      Moves serde prims client clock .cancelled client.endSession
  | stopped (sleeping : client.phase = .sleeping) (cancelled : client.cancelled = true) :
      Moves serde prims client clock .cancelled { client with phase := .stopped }
  | wake (sleeping : client.phase = .sleeping) :
      Moves serde prims client clock .wake { client with
        backoff := min (client.backoff * 2) maxBackoff
        phase := if client.cancelled then .stopped else .dialing }
  | answered {index : Nat} {ok : Bool} {error : Option String} {result : Option ActionResult} {task : Running}
      (found : client.running[index]? = some task) (listens : client.listens task.connection = true) :
      Moves serde prims client clock (.finish index ok error result) { client with
        running := client.running.eraseIdx index
        acks := client.acks ++ [⟨task.cmd.commandId, ok, error, result⟩] }
  | unheard {index : Nat} {ok : Bool} {error : Option String} {result : Option ActionResult} {task : Running}
      (found : client.running[index]? = some task) (gone : client.listens task.connection = false) :
      Moves serde prims client clock (.finish index ok error result)
        { client with running := client.running.eraseIdx index }
  | emit (event : EventPayload) :
      Moves serde prims client clock (.emit event) { client with events := client.events ++ [event] }

theorem step_moves {client next : Client} (stepped : client.step serde prims clock input = some next) :
    Moves serde prims client clock input next := by
  cases input with
  | cancel =>
    cases stepped
    exact .cancel
  | dial connected =>
    cases phase : client.phase <;> simp only [step, phase, reduceCtorEq] at stepped
    cases connected with
    | true =>
      cases stepped
      exact .connected phase
    | false =>
      cases stepped
      exact .refused phase
  | hello delivered =>
    cases phase : client.phase <;> simp only [step, phase, reduceCtorEq] at stepped
    cases stepped
    exact .hello phase delivered
  | tick delivered =>
    cases phase : client.phase <;> simp only [step, phase, reduceCtorEq] at stepped
    cases stepped
    exact .tick phase delivered
  | event delivered =>
    simp only [step] at stepped
    split at stepped
    · rename_i serving queue
      cases stepped
      exact .event serving queue delivered
    · contradiction
  | ack delivered =>
    simp only [step] at stepped
    split at stepped
    · rename_i serving queue
      cases stepped
      exact .ack serving queue delivered
    · contradiction
  | incoming frame =>
    cases phase : client.phase <;> simp only [step, phase, reduceCtorEq] at stepped
    split at stepped
    · cases stepped
      exact .closed phase nofun
    · cases stepped
      exact .closed phase nofun
    · cases stepped
      refine .closed phase ?_
      rintro received ⟨⟩
      rfl
    · cases stepped
      unfold receive
      split
      · rename_i received
        exact .silent phase received
      · rename_i received
        exact .spawned phase received
      · rename_i received
        exact .failed phase received
    · cases stepped
      exact .ignored phase
  | cancelled =>
    simp only [step] at stepped
    split at stepped
    · rename_i cancelled
      split at stepped
      · rename_i serving
        cases stepped
        exact .left serving cancelled
      · rename_i sleeping
        cases stepped
        exact .stopped sleeping cancelled
      · contradiction
    · contradiction
  | wake =>
    cases phase : client.phase <;> simp only [step, phase, reduceCtorEq] at stepped
    cases stepped
    exact .wake phase
  | finish index ok error result =>
    simp only [step] at stepped
    split at stepped
    · rename_i task found
      cases stepped
      split
      · rename_i listens
        exact .answered found listens
      · rename_i gone
        exact .unheard found (Bool.eq_false_iff.mpr gone)
    · contradiction
  | emit event =>
    cases stepped
    exact .emit event

/-- What a step leaves alone unless it opens a session or handles a message. -/
structure Keeps (client next : Client) : Prop where
  nodeToken : next.nodeToken = client.nodeToken
  handled : next.handled = client.handled
  session : next.phase.session = client.phase.session ∨ next.phase.session = none

theorem Keeps.endSession (client : Client) : Keeps client client.endSession :=
  ⟨rfl, rfl, .inr rfl⟩

theorem Keeps.send {client base : Client} (keeps : Keeps client base)
    (payload : Outgoing) (delivered : Bool) : Keeps client (base.send payload delivered) := by
  unfold Client.send
  split
  · exact ⟨keeps.nodeToken, keeps.handled, keeps.session⟩
  · exact ⟨keeps.nodeToken, keeps.handled, .inr rfl⟩

/-- The three things a step can do to the sessions and the handled commands:
keep or end the session, open one, or handle one text message. -/
theorem step_cases {client next : Client} (stepped : client.step serde prims clock input = some next) :
    Keeps client next ∨
    (input = .dial true ∧ next.nodeToken = client.nodeToken ∧ next.handled = client.handled ∧
      next.phase.session = some (Session.new client.nodeToken)) ∨
    (∃ session session' text outcome, client.phase.session = some session ∧
      session.handleIncoming serde prims clock text = (.ok outcome, session') ∧
      next.nodeToken = client.nodeToken ∧ next.handled = client.handled ++ outcome.toList ∧
      next.phase.session = some session') := by
  cases step_moves stepped with
  | cancel | emit | answered | unheard | ignored => exact .inl ⟨rfl, rfl, .inl rfl⟩
  | refused | stopped => exact .inl ⟨rfl, rfl, .inr rfl⟩
  | closed | failed | left => exact .inl (.endSession client)
  | connected => exact .inr (.inl ⟨rfl, rfl, rfl, rfl⟩)
  | hello greeting delivered =>
    refine .inl (Keeps.send ?_ _ _)
    exact ⟨rfl, rfl, .inl (by rw [greeting]; rfl)⟩
  | tick | event | ack =>
    refine .inl (Keeps.send ?_ _ _)
    exact ⟨rfl, rfl, .inl rfl⟩
  | silent serving received =>
    exact .inr (.inr ⟨_, _, _, none, by rw [serving]; rfl, received, rfl, by simp, rfl⟩)
  | spawned serving received =>
    exact .inr (.inr ⟨_, _, _, some _, by rw [serving]; rfl, received, rfl, rfl, rfl⟩)
  | wake =>
    refine .inl ⟨rfl, rfl, .inr ?_⟩
    dsimp only
    split <;> rfl

end Client

/-- The steps of the client, whatever the clock reads at each. -/
def Client.Steps (serde : Serde) (prims : Primitives) (client : Client) (label : Clock × Input)
    (after : Client) : Prop :=
  client.step serde prims label.1 label.2 = some after

/-- A client with the instant of its last step. Both clocks advance together. -/
structure Timed where
  client : Client
  last : Clock

inductive Timed.Step (serde : Serde) (prims : Primitives) : Timed → Clock × Input → Timed → Prop where
  | step {before : Client} {last clock : Clock} :
      last.mono ≤ clock.mono → clock.wall + last.mono = last.wall + clock.mono →
      before.step serde prims clock input = some after →
      Step serde prims ⟨before, last⟩ (clock, input) ⟨after, clock⟩

end SkyDaemon.Agent
