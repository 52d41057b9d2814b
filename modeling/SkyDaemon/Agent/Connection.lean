import SkyDaemon.Agent.Delivery

/-! The life of the connections over a whole run of `client::run`: what is said on each of them, how
long the agent waits between dials, and how it winds down once it is cancelled. -/
namespace SkyDaemon.Agent
open Transition

/-- What one connection may carry: a hello, and no other one after it. -/
def Talk : List Outgoing → Prop
  | [] => True
  | first :: rest => first = .hello ∧ .hello ∉ rest

theorem Talk.said {messages : List Outgoing} {payload : Outgoing} (talk : Talk messages) (greeted : messages ≠ [])
    (other : payload ≠ .hello) : Talk (messages ++ [payload]) := by
  cases messages with
  | nil => contradiction
  | cons first rest =>
    refine ⟨talk.1, fun again => ?_⟩
    rcases List.mem_append.mp again with earlier | last
    · exact talk.2 earlier
    · exact other (List.mem_singleton.mp last).symm

namespace Client
variable {serde : Serde} {prims : Protocol.Primitives}

def saidOn (client : Client) (connection : Nat) : List Outgoing :=
  (client.sent.filter (·.1 == connection)).map (·.2)

theorem saidOn_append {client after : Client} {connection : Nat} {payload : Outgoing}
    (sent : after.sent = client.sent ++ [(connection, payload)]) (k : Nat) :
    after.saidOn k = if k = connection then client.saidOn k ++ [payload] else client.saidOn k := by
  unfold saidOn
  rw [sent, List.filter_append, List.map_append]
  split
  case isTrue same => simp [same]
  case isFalse other => simp [Ne.symm other]

/-- Everything a step can do to the wire. -/
inductive MovesTalk (client after : Client) : Prop
  | quiet (sent : after.sent = client.sent) (connection : after.connection = client.connection)
      (session : (∃ session, after.phase = .greeting session) → ∃ session, client.phase = .greeting session)
      (serving : (∃ session, after.phase = .serving session) → ∃ session, client.phase = .serving session)
  | opens {session : Session} (sent : after.sent = client.sent) (connection : after.connection = client.connection + 1)
      (greeting : after.phase = .greeting session)
  | greets {session : Session} (greeting : client.phase = .greeting session)
      (sent : after.sent = client.sent ++ [(client.connection, .hello)])
      (connection : after.connection = client.connection) (serving : after.phase = .serving session)
  | speaks {session : Session} {payload : Outgoing} (serving : client.phase = .serving session)
      (other : payload ≠ .hello) (sent : after.sent = client.sent ++ [(client.connection, payload)])
      (connection : after.connection = client.connection) (still : after.phase = .serving session)

theorem MovesTalk.ended (client : Client) : MovesTalk client client.endSession :=
  .quiet rfl rfl (by rintro ⟨_, ⟨⟩⟩) (by rintro ⟨_, ⟨⟩⟩)

theorem MovesTalk.send {client base : Client} {session : Session} {payload : Outgoing}
    (serving : client.phase = .serving session) (sent : base.sent = client.sent)
    (connection : base.connection = client.connection) (phase : base.phase = client.phase)
    (other : payload ≠ .hello) (delivered : Bool) : MovesTalk client (base.send payload delivered) := by
  unfold Client.send
  split
  · refine .speaks serving other ?_ connection (phase.trans serving)
    rw [← sent, ← connection]
    rfl
  · exact .quiet sent connection (by rintro ⟨_, ⟨⟩⟩) (by rintro ⟨_, ⟨⟩⟩)

theorem talk_cases {client after : Client} (stepped : client.step serde prims clock input = some after) :
    MovesTalk client after := by
  cases step_moves stepped with
  | cancel | emit | answered | unheard | ignored => exact .quiet rfl rfl id id
  | refused | stopped => exact .quiet rfl rfl (by rintro ⟨_, ⟨⟩⟩) (by rintro ⟨_, ⟨⟩⟩)
  | closed | failed | left => exact .ended client
  | connected => exact .opens rfl rfl rfl
  | hello greeting delivered =>
    unfold Client.send
    split
    · exact .greets greeting rfl rfl rfl
    · exact .quiet rfl rfl (by rintro ⟨_, ⟨⟩⟩) (by rintro ⟨_, ⟨⟩⟩)
  | tick serving delivered | event serving queue delivered | ack serving queue delivered =>
    refine .send serving ?_ ?_ ?_ ?_ delivered
    · rfl
    · rfl
    · rfl
    · rintro ⟨⟩
  | silent serving received => exact .quiet rfl rfl (by rintro ⟨_, ⟨⟩⟩) fun _ => ⟨_, serving⟩
  | spawned serving received => exact .quiet rfl rfl (by rintro ⟨_, ⟨⟩⟩) fun _ => ⟨_, serving⟩
  | wake sleeping =>
    refine .quiet rfl rfl ?_ ?_ <;> rintro ⟨_, phase⟩ <;> dsimp only at phase <;> split at phase <;> cases phase

/-- The wire of a client at any time. -/
structure Orderly (client : Client) : Prop where
  /-- Nothing is said ahead of the current connection. -/
  numbered : ∀ entry ∈ client.sent, entry.1 ≤ client.connection
  sorted : client.sent.Pairwise fun first second => first.1 ≤ second.1
  talk : ∀ connection, Talk (client.saidOn connection)
  silent : ∀ session, client.phase = .greeting session → client.saidOn client.connection = []
  greeted : ∀ session, client.phase = .serving session → client.saidOn client.connection ≠ []

namespace Orderly

theorem start (nodeToken : String) : (Client.start nodeToken).Orderly where
  numbered := List.forall_mem_nil _
  sorted := .nil
  talk _ := trivial
  silent _ impossible := by cases impossible
  greeted _ impossible := by cases impossible

variable {client after : Client}

theorem saidOn_ahead (orderly : client.Orderly) {connection : Nat} (ahead : client.connection < connection) :
    client.saidOn connection = [] := by
  unfold saidOn
  rw [List.map_eq_nil_iff, List.filter_eq_nil_iff]
  intro entry member same
  have behind := orderly.numbered entry member
  rw [beq_iff_eq.mp same] at behind
  omega

/-- One more message on the current connection. -/
theorem append (orderly : client.Orderly) {payload : Outgoing} {session : Session}
    (sent : after.sent = client.sent ++ [(client.connection, payload)])
    (connection : after.connection = client.connection) (serving : after.phase = .serving session)
    (talk : Talk (client.saidOn client.connection ++ [payload])) : after.Orderly where
  numbered := by
    rw [sent, connection, List.forall_mem_append]
    exact ⟨orderly.numbered, List.forall_mem_singleton.mpr le_rfl⟩
  sorted := by
    rw [sent, List.pairwise_append]
    refine ⟨orderly.sorted, List.pairwise_singleton _ _, fun entry member last inside => ?_⟩
    rw [List.mem_singleton.mp inside]
    exact orderly.numbered entry member
  talk k := by
    rw [saidOn_append sent]
    split
    case isTrue same => rwa [same]
    case isFalse => exact orderly.talk k
  silent _ greeting := by
    rw [serving] at greeting
    cases greeting
  greeted _ _ := by
    rw [saidOn_append sent, connection, if_pos rfl]
    exact List.append_ne_nil_of_right_ne_nil _ (List.cons_ne_nil _ _)

theorem step (orderly : client.Orderly) (stepped : client.step serde prims clock input = some after) :
    after.Orderly := by
  have same (sent : after.sent = client.sent) (k : Nat) : after.saidOn k = client.saidOn k := by
    unfold saidOn
    rw [sent]
  cases talk_cases stepped with
  | quiet sent connection greeting serving =>
    refine ⟨?_, ?_, fun k => ?_, fun session phase => ?_, fun session phase => ?_⟩
    · rw [sent, connection]
      exact orderly.numbered
    · rw [sent]
      exact orderly.sorted
    · rw [same sent]
      exact orderly.talk k
    · obtain ⟨session, phase⟩ := greeting ⟨session, phase⟩
      rw [same sent, connection]
      exact orderly.silent session phase
    · obtain ⟨session, phase⟩ := serving ⟨session, phase⟩
      rw [same sent, connection]
      exact orderly.greeted session phase
  | opens sent connection greeting =>
    refine ⟨fun entry member => ?_, ?_, fun k => ?_, fun session phase => ?_, fun session phase => ?_⟩
    · rw [sent] at member
      rw [connection]
      exact (orderly.numbered entry member).trans (Nat.le_succ _)
    · rw [sent]
      exact orderly.sorted
    · rw [same sent]
      exact orderly.talk k
    · rw [same sent, connection]
      exact orderly.saidOn_ahead (Nat.lt_succ_self _)
    · rw [greeting] at phase
      cases phase
  | greets greeting sent connection serving =>
    refine orderly.append sent connection serving ?_
    rw [orderly.silent _ greeting]
    exact ⟨rfl, List.not_mem_nil⟩
  | speaks serving other sent connection still =>
    exact orderly.append sent connection still ((orderly.talk _).said (orderly.greeted _ serving) other)

end Orderly

theorem orderly_run {client after : Client} {labels : List (Protocol.Clock × Input)}
    (run : Run (Steps serde prims) client labels after) (orderly : client.Orderly) : after.Orderly :=
  run.invariant (fun before stepped => before.step stepped) orderly

/-- In every run, the messages of a connection start with the hello and no other hello follows, and
nothing is sent on a connection once a later one has said anything. -/
theorem connections_greeted (serde : Serde) (prims : Protocol.Primitives) (nodeToken : String)
    (labels : List (Protocol.Clock × Input)) (client : Client)
    (run : Run (Steps serde prims) (Client.start nodeToken) labels client) :
    (∀ connection, Talk (client.saidOn connection)) ∧
      client.sent.Pairwise (fun first second => first.1 ≤ second.1) ∧
      ∀ entry ∈ client.sent, entry.1 ≤ client.connection := by
  have orderly := orderly_run run (.start nodeToken)
  exact ⟨orderly.talk, orderly.sorted, orderly.numbered⟩

/-- Two refused dials, a connection that is lost after a heartbeat, and another one. -/
def reconnectingRun : List (Protocol.Clock × Input) :=
  [.dial false, .wake, .dial false, .wake, .dial true, .hello true, .tick true, .incoming none, .wake, .dial true,
    .hello true].map (capturedClock 0, ·)

theorem both_connections_greeted : ∃ client,
    Run (Steps capturedSerde capturedPrimitives) (Client.start "node-secret") reconnectingRun client ∧
      client.saidOn 1 = [.hello, .heartbeat] ∧ client.saidOn 2 = [.hello] ∧ Talk (client.saidOn 1) := by
  have run := captured_run (show captured reconnectingRun = some _ from rfl)
  exact ⟨_, run, rfl, rfl, (connections_greeted _ _ _ _ _ run).1 1⟩

/-! ## Backoff -/

/-- The sleeps that were slept out since the last connection, after one more input. -/
def countSleeps (slept : Nat) : Input → Nat
  | .dial true => 0
  | .wake => slept + 1
  | _ => slept

def sleeps (labels : List (Protocol.Clock × Input)) : Nat :=
  labels.foldl (fun slept label => countSleeps slept label.2) 0

theorem double_min (slept : Nat) :
    min (min (2 ^ slept) maxBackoff * 2) maxBackoff = min (2 ^ (slept + 1)) maxBackoff := by
  unfold maxBackoff
  omega

theorem send_backoff (client : Client) (payload : Outgoing) (delivered : Bool) :
    (client.send payload delivered).backoff = client.backoff := by
  unfold Client.send
  split <;> rfl

theorem backoff_step {client after : Client} {slept : Nat} (before : client.backoff = min (2 ^ slept) maxBackoff)
    (stepped : client.step serde prims clock input = some after) :
    after.backoff = min (2 ^ countSleeps slept input) maxBackoff := by
  cases step_moves stepped with
  | connected => rfl
  | wake =>
    change min (client.backoff * 2) maxBackoff = _
    rw [before, double_min, countSleeps]
  | hello | tick | event | ack => exact (send_backoff _ _ _).trans before
  | _ => exact before

/-- The agent waits for one second after the first failure and twice as long after each further one, up
to thirty seconds; a connection starts the series again. -/
theorem backoff_doubles (serde : Serde) (prims : Protocol.Primitives) (nodeToken : String)
    (labels : List (Protocol.Clock × Input)) (client : Client)
    (run : Run (Steps serde prims) (Client.start nodeToken) labels client) :
    client.backoff = min (2 ^ sleeps labels) maxBackoff := by
  have general {client after : Client} {labels : List (Protocol.Clock × Input)}
      (run : Run (Steps serde prims) client labels after) : ∀ slept, client.backoff = min (2 ^ slept) maxBackoff →
      after.backoff = min (2 ^ labels.foldl (fun slept label => countSleeps slept label.2) slept) maxBackoff := by
    induction run with
    | refl => exact fun _ same => same
    | next stepped _ ih => exact fun slept same => ih _ (backoff_step same stepped)
  exact general run 0 rfl

theorem refused_dials_back_off : ∃ client,
    Run (Steps capturedSerde capturedPrimitives) (Client.start "node-secret") (reconnectingRun.take 4) client ∧
      client.backoff = 4 := by
  have run := captured_run (show captured (reconnectingRun.take 4) = some _ from rfl)
  exact ⟨_, run, backoff_doubles _ _ _ _ _ run⟩

/-! ## Winding down -/

/-- The loop does not wait for the token while it dials: one dial may still come through. -/
def pendingDials : Phase → Nat
  | .dialing => 1
  | _ => 0

/-- Only the end of the loop is left. -/
def Over (client : Client) : Prop := client.cancelled = true ∧ (client.phase = .sleeping ∨ client.phase = .stopped)

theorem send_phase (client : Client) (payload : Outgoing) (delivered : Bool) :
    (client.send payload delivered).cancelled = client.cancelled ∧
      (client.send payload delivered).connection = client.connection ∧
      ((client.send payload delivered).phase = client.phase ∨ (client.send payload delivered).phase = .sleeping) := by
  unfold Client.send
  split
  · exact ⟨rfl, rfl, .inl rfl⟩
  · exact ⟨rfl, rfl, .inr rfl⟩

theorem cancelled_step {client after : Client} (cancelled : client.cancelled = true)
    (stepped : client.step serde prims clock input = some after) :
    after.cancelled = true ∧
      after.connection + pendingDials after.phase ≤ client.connection + pendingDials client.phase := by
  have sends {base : Client} {session : Session} {payload : Outgoing} {delivered : Bool}
      (token : base.cancelled = true) (number : base.connection = client.connection)
      (serving : base.phase = .serving session) :
      (base.send payload delivered).cancelled = true ∧
        (base.send payload delivered).connection + pendingDials (base.send payload delivered).phase ≤
          client.connection + pendingDials client.phase := by
    obtain ⟨same, connection, phase⟩ := send_phase base payload delivered
    refine ⟨same.trans token, ?_⟩
    rw [connection, number]
    rcases phase with phase | phase
    · rw [phase, serving]
      exact Nat.le_add_right _ _
    · rw [phase]
      exact Nat.le_add_right _ _
  cases step_moves stepped with
  | cancel => exact ⟨rfl, le_rfl⟩
  | emit | answered | unheard | ignored => exact ⟨cancelled, le_rfl⟩
  | connected dialing =>
    rw [dialing]
    exact ⟨cancelled, le_rfl⟩
  | refused | stopped | closed | failed | left | silent | spawned => exact ⟨cancelled, Nat.le_add_right _ _⟩
  | hello greeting delivered => exact sends cancelled rfl rfl
  | tick serving delivered | event serving queue delivered | ack serving queue delivered =>
    exact sends cancelled rfl serving
  | wake sleeping =>
    refine ⟨cancelled, ?_⟩
    dsimp only
    rw [if_pos cancelled]
    exact Nat.le_add_right _ _

/-- A loop that is over says nothing and handles nothing any more. -/
theorem over_step {client after : Client} (ended : client.Over)
    (stepped : client.step serde prims clock input = some after) :
    after.Over ∧ after.sent = client.sent ∧ after.handled = client.handled := by
  obtain ⟨cancelled, phase⟩ := ended
  cases step_moves stepped with
  | cancel => exact ⟨⟨rfl, phase⟩, rfl, rfl⟩
  | emit | answered | unheard => exact ⟨⟨cancelled, phase⟩, rfl, rfl⟩
  | stopped => exact ⟨⟨cancelled, .inr rfl⟩, rfl, rfl⟩
  | wake =>
    refine ⟨⟨cancelled, .inr ?_⟩, rfl, rfl⟩
    dsimp only
    rw [if_pos cancelled]
  | connected here | refused here | hello here | tick here | event here | ack here | closed here | failed here
  | silent here | spawned here | ignored here | left here =>
    rw [here] at phase
    rcases phase with impossible | impossible <;> cases impossible

/-- The way out of each phase when the token is what the loop looks at next, given how a pending dial
and a pending hello come out. -/
def windDown (clock : Protocol.Clock) (connected greeted : Bool) : Phase → List (Protocol.Clock × Input)
  | .stopped => []
  | .sleeping => [(clock, .cancelled)]
  | .serving _ => [(clock, .cancelled), (clock, .cancelled)]
  | .greeting _ => (clock, .hello greeted) :: if greeted then [(clock, .cancelled), (clock, .cancelled)]
      else [(clock, .cancelled)]
  | .dialing => (clock, .dial connected) :: if connected then
        (clock, .hello greeted) :: if greeted then [(clock, .cancelled), (clock, .cancelled)] else [(clock, .cancelled)]
      else [(clock, .cancelled)]

theorem windDown_run {client : Client} (cancelled : client.cancelled = true) (clock : Protocol.Clock)
    (connected greeted : Bool) :
    ∃ stopped, Run (Steps serde prims) client (windDown clock connected greeted client.phase) stopped ∧
      stopped.phase = .stopped := by
  have sleeping (client : Client) (cancelled : client.cancelled = true) (phase : client.phase = .sleeping) :
      ∃ stopped, Run (Steps serde prims) client [(clock, .cancelled)] stopped ∧ stopped.phase = .stopped :=
    ⟨{ client with phase := .stopped }, .single (by simp [Steps, step, cancelled, phase]), rfl⟩
  have serving (client : Client) (cancelled : client.cancelled = true) {session : Session}
      (phase : client.phase = .serving session) :
      ∃ stopped, Run (Steps serde prims) client [(clock, .cancelled), (clock, .cancelled)] stopped ∧
        stopped.phase = .stopped := by
    obtain ⟨stopped, run, reached⟩ := sleeping client.endSession cancelled rfl
    exact ⟨stopped, .next (by simp [Steps, step, cancelled, phase]) run, reached⟩
  have greeting (client : Client) (cancelled : client.cancelled = true) {session : Session}
      (phase : client.phase = .greeting session) :
      ∃ stopped, Run (Steps serde prims) client ((clock, .hello greeted) ::
        if greeted then [(clock, .cancelled), (clock, .cancelled)] else [(clock, .cancelled)]) stopped ∧
        stopped.phase = .stopped := by
    have first : client.Steps serde prims (clock, .hello greeted)
        ({ client with phase := .serving session }.send .hello greeted) := by simp [Steps, step, phase]
    cases greeted with
    | true =>
      obtain ⟨stopped, run, reached⟩ := serving ({ client with phase := .serving session }.send .hello true)
        cancelled rfl
      exact ⟨stopped, .next first run, reached⟩
    | false =>
      obtain ⟨stopped, run, reached⟩ := sleeping ({ client with phase := .serving session }.send .hello false)
        cancelled rfl
      exact ⟨stopped, .next first run, reached⟩
  cases phase : client.phase with
  | stopped => exact ⟨client, .refl _, phase⟩
  | sleeping => exact sleeping client cancelled phase
  | serving session => exact serving client cancelled phase
  | greeting session => exact greeting client cancelled phase
  | dialing =>
    cases connected with
    | true =>
      obtain ⟨stopped, run, reached⟩ := greeting { client with
        phase := .greeting (Session.new client.nodeToken)
        backoff := minBackoff
        connection := client.connection + 1
        acks := [] } cancelled rfl
      exact ⟨stopped, .next (by simp [Steps, step, phase]) run, reached⟩
    | false =>
      obtain ⟨stopped, run, reached⟩ := sleeping { client with phase := .sleeping } cancelled rfl
      exact ⟨stopped, .next (by simp [Steps, step, phase]) run, reached⟩

/-- Once the token has fired, at most one more connection is opened, and from every state the loop can
stop within four steps, however a pending dial and a pending hello come out. A loop that is over never
sends or handles anything again. -/
theorem cancelled_winds_down (serde : Serde) (prims : Protocol.Primitives) (client after : Client)
    (cancelled : client.cancelled = true) (labels : List (Protocol.Clock × Input))
    (run : Run (Steps serde prims) client labels after) :
    after.connection ≤ client.connection + 1 ∧
    (client.Over → after.Over ∧ after.sent = client.sent ∧ after.handled = client.handled) ∧
    ∀ clock connected greeted, (windDown clock connected greeted after.phase).length ≤ 4 ∧
      ∃ stopped, Run (Steps serde prims) after (windDown clock connected greeted after.phase) stopped ∧
        stopped.phase = .stopped := by
  have token : after.cancelled = true ∧
      after.connection + pendingDials after.phase ≤ client.connection + pendingDials client.phase := by
    refine run.invariant (P := fun state => state.cancelled = true ∧
      state.connection + pendingDials state.phase ≤ client.connection + pendingDials client.phase)
      (fun before stepped => ?_) ⟨cancelled, le_rfl⟩
    obtain ⟨still, fewer⟩ := cancelled_step before.1 stepped
    exact ⟨still, fewer.trans before.2⟩
  have one : pendingDials client.phase ≤ 1 := by cases client.phase <;> simp [pendingDials]
  refine ⟨by omega, fun ended => ?_, fun clock connected greeted => ⟨?_, windDown_run token.1 clock connected greeted⟩⟩
  · exact run.invariant (P := fun state => state.Over ∧ state.sent = client.sent ∧ state.handled = client.handled)
      (fun before stepped => by
        obtain ⟨still, sent, handled⟩ := over_step before.1 stepped
        exact ⟨still, sent.trans before.2.1, handled.trans before.2.2⟩) ⟨ended, rfl, rfl⟩
  · cases after.phase <;> cases connected <;> cases greeted <;> simp [windDown]

/-- The token has fired while the agent dials. -/
def cancelledDial : Client := { Client.start "node-secret" with cancelled := true }

theorem cancelled_dial_winds_down : ∃ after,
    Run (Steps capturedSerde capturedPrimitives) cancelledDial [(capturedClock 0, .dial true)] after ∧
      ∃ stopped, Run (Steps capturedSerde capturedPrimitives) after
        [(capturedClock 0, .hello true), (capturedClock 0, .cancelled), (capturedClock 0, .cancelled)] stopped ∧
        stopped.phase = .stopped := by
  have run : Run (Steps capturedSerde capturedPrimitives) cancelledDial [(capturedClock 0, .dial true)] _ :=
    .single rfl
  obtain ⟨-, -, out⟩ := cancelled_winds_down _ _ _ _ rfl _ run
  exact ⟨_, run, (out (capturedClock 0) true true).2⟩

end Client
end SkyDaemon.Agent
