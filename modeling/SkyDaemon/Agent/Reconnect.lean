import SkyDaemon.Agent.Client
import SkyDaemon.Agent.Replay

/-! Replay protection across reconnects. The nonce cache is created with the
session, so once a connection is gone only the freshness window is left. -/
namespace SkyDaemon.Agent
open Protocol Transition

theorem Session.new_handles {nodeToken : String} (parsed : serde.envelope text = some envelope)
    (verified : envelope.verify prims clock (Text.bytes nodeToken) = true)
    (kind : envelope.kind = EnvelopeType.command)
    (decoded : serde.command envelope.payload = some cmd) :
    ∃ next, (Session.new nodeToken).handleIncoming serde prims clock text =
      (.ok (some ⟨envelope, cmd⟩), next) :=
  ⟨_, handleIncoming_spawns parsed verified (NonceCache.checkAndRecord_unseen rfl) kind decoded⟩

/-- A dialing client connects, greets and handles one message that a new session accepts. -/
theorem Client.connection_steps (client : Client) (dialing : client.phase = .dialing)
    (parsed : serde.envelope text = some envelope)
    (verified : envelope.verify prims clock (Text.bytes client.nodeToken) = true)
    (kind : envelope.kind = EnvelopeType.command)
    (decoded : serde.command envelope.payload = some cmd) :
    ∃ greeting serving after session, client.step serde prims clock (.dial true) = some greeting ∧
      greeting.step serde prims clock (.hello true) = some serving ∧
      serving.step serde prims clock (.incoming (some (.ok (.text text)))) = some after ∧
      after.phase = .serving session ∧ after.cancelled = client.cancelled ∧
      after.nodeToken = client.nodeToken ∧ after.handled = client.handled ++ [⟨envelope, cmd⟩] := by
  obtain ⟨session, handled⟩ := Session.new_handles parsed verified kind decoded
  let greeting : Client := { client with
    phase := .greeting (Session.new client.nodeToken)
    backoff := minBackoff
    connection := client.connection + 1
    acks := [] }
  let serving : Client := { greeting with
    phase := .serving (Session.new client.nodeToken)
    sent := client.sent ++ [(client.connection + 1, .hello)] }
  let after : Client := { serving with phase := .serving session }.spawn ⟨envelope, cmd⟩
  refine ⟨greeting, serving, after, session, ?_, rfl, ?_, rfl, rfl, rfl, rfl⟩
  · simp only [Client.step, dialing, if_true]
    rfl
  · simp only [Client.step, serving, Client.receive, handled]
    rfl

theorem Client.connection_run (client : Client) {last clock : Clock}
    (dialing : client.phase = .dialing) (together : Together last clock) (parsed : serde.envelope text = some envelope)
    (verified : envelope.verify prims clock (Text.bytes client.nodeToken) = true)
    (kind : envelope.kind = EnvelopeType.command)
    (decoded : serde.command envelope.payload = some cmd) :
    ∃ after session, Run (Timed.Step serde prims) ⟨client, last⟩
        [(clock, .dial true), (clock, .hello true), (clock, .incoming (some (.ok (.text text))))]
        ⟨after, clock⟩ ∧
      after.phase = .serving session ∧ after.cancelled = client.cancelled ∧
      after.nodeToken = client.nodeToken ∧ after.handled = client.handled ++ [⟨envelope, cmd⟩] := by
  obtain ⟨greeting, serving, after, session, dial, hello, message, reached⟩ :=
    client.connection_steps dialing parsed verified kind decoded
  have stay := Together.refl clock
  exact ⟨after, session, .next (.step together.1 together.2 dial) (.next (.step stay.1 stay.2 hello)
    (.single (.step stay.1 stay.2 message))), reached⟩

/-- Every handled command came in a verified command envelope. -/
def Client.Genuine (serde : Serde) (prims : Primitives) (client : Client) : Prop :=
  (∀ session, client.phase.session = some session → session.nodeToken = client.nodeToken) ∧
  ∀ dispatch ∈ client.handled, ∃ text, serde.envelope text = some dispatch.envelope ∧
    dispatch.envelope.kind = EnvelopeType.command ∧
    serde.command dispatch.envelope.payload = some dispatch.cmd ∧
    sign prims (Text.bytes client.nodeToken) dispatch.envelope.kind dispatch.envelope.timestamp
      dispatch.envelope.nonce (Text.bytes dispatch.envelope.payload) = dispatch.envelope.sig

theorem Client.genuine_start (serde : Serde) (prims : Primitives) (nodeToken : String) :
    (Client.start nodeToken).Genuine serde prims := by
  constructor
  · intro session live
    contradiction
  · intro dispatch member
    contradiction

theorem Client.Genuine.step {client next : Client} (genuine : client.Genuine serde prims)
    (stepped : client.step serde prims clock input = some next) : next.Genuine serde prims := by
  obtain ⟨tokens, commands⟩ := genuine
  rcases Client.step_cases stepped with keeps | ⟨-, token, log, live⟩ |
    ⟨session, session', text, outcome, live, handled, token, log, live'⟩
  · rw [Genuine, keeps.nodeToken, keeps.handled]
    refine ⟨?_, commands⟩
    intro session live
    rcases keeps.session with same | ended
    · exact tokens session (same ▸ live)
    · rw [ended] at live
      contradiction
  · rw [Genuine, token, log, live]
    refine ⟨?_, commands⟩
    rintro session ⟨⟩
    rfl
  · have same := tokens session live
    rw [Genuine, token, log, live']
    rcases Session.handleIncoming_cases handled with ⟨rfl, -, silent⟩ |
      ⟨envelope, parsed, verified, rfl, spawns⟩
    · refine ⟨by rintro _ ⟨⟩; exact same, ?_⟩
      intro dispatch member
      cases outcome with
      | none => exact commands dispatch (by simpa using member)
      | some spawned => exact absurd rfl (silent spawned)
    · refine ⟨by rintro _ ⟨⟩; exact same, ?_⟩
      intro dispatch member
      rcases List.mem_append.mp member with earlier | spawned
      · exact commands dispatch earlier
      · obtain ⟨-, kind, decoded, rfl⟩ := spawns dispatch (by rw [Option.mem_toList.mp spawned])
        exact ⟨text, parsed, kind, decoded, same ▸ (Envelope.verify_iff.mp verified).2⟩

/-- No connection opens while a command already handled is still fresh. -/
def ReconnectsStale (timed : Timed) (label : Clock × Input) : Prop :=
  label.2 = .dial true → ∀ dispatch ∈ timed.client.handled,
    timestampIsFresh (nowUnix label.1) dispatch.envelope.timestamp = false

/-- Every handled command is stale for good, or the live session remembers its nonce. -/
def Timed.Covered (timed : Timed) (session : Session) : Prop :=
  ∃ accepted, session.Guards accepted timed.last.mono ∧
    (∀ envelope clock, (envelope, clock) ∈ accepted → Together clock timed.last) ∧
    ∀ dispatch ∈ timed.client.handled,
      timestampIsFresh (nowUnix timed.last) dispatch.envelope.timestamp = false ∨
        ∃ clock, (dispatch.envelope, clock) ∈ accepted

structure Timed.Once (timed : Timed) : Prop where
  nodup : (timed.client.handled.map Dispatch.envelope).Nodup
  wasFresh : ∀ dispatch ∈ timed.client.handled, ∃ clock, Together clock timed.last ∧
    timestampIsFresh (nowUnix clock) dispatch.envelope.timestamp = true
  covered : ∀ session, timed.client.phase.session = some session → timed.Covered session

namespace Timed.Once

theorem start (nodeToken : String) (last : Clock) : Timed.Once ⟨Client.start nodeToken, last⟩ where
  nodup := List.nodup_nil
  wasFresh := by
    intro dispatch member
    contradiction
  covered := by
    intro session live
    contradiction

theorem wasFresh_later {client : Client} {last clock : Clock} (once : Timed.Once ⟨client, last⟩)
    (together : Together last clock) : ∀ dispatch ∈ client.handled, ∃ instant,
      Together instant clock ∧ timestampIsFresh (nowUnix instant) dispatch.envelope.timestamp = true := by
  intro dispatch member
  obtain ⟨instant, before, fresh⟩ := once.wasFresh dispatch member
  exact ⟨instant, before.trans together, fresh⟩

theorem stale_later {client : Client} {last clock : Clock} (once : Timed.Once ⟨client, last⟩)
    (together : Together last clock) (member : dispatch ∈ client.handled)
    (stale : timestampIsFresh (nowUnix last) dispatch.envelope.timestamp = false) :
    timestampIsFresh (nowUnix clock) dispatch.envelope.timestamp = false := by
  obtain ⟨instant, before, fresh⟩ := once.wasFresh dispatch member
  exact stale_forever fresh stale before.wall_le together.wall_le

/-- A message on a covered session is no command that was handled before. -/
theorem unhandled {client : Client} {last clock : Clock} (once : Timed.Once ⟨client, last⟩)
    (together : Together last clock) (live : client.phase.session = some session)
    (fresh : timestampIsFresh (nowUnix clock) envelope.timestamp = true)
    (checked : (session.incomingNonces.checkAndRecord clock.mono envelope.nonce).1 = true) :
    envelope ∉ client.handled.map Dispatch.envelope := by
  intro repeated
  obtain ⟨dispatch, member, rfl⟩ := List.mem_map.mp repeated
  obtain ⟨accepted, guards, earlier, covers⟩ := once.covered session live
  rcases covers dispatch member with stale | ⟨instant, inside⟩
  · rw [once.stale_later together member stale] at fresh
    contradiction
  · have refused := guards.refuses inside together.1
      ((earlier _ _ inside).trans together).drifts fresh
    rw [refused] at checked
    contradiction

theorem covered_handled {client : Client} {last clock : Clock} (once : Timed.Once ⟨client, last⟩)
    (together : Together last clock) (live : client.phase.session = some session)
    (handled : session.handleIncoming serde prims clock text = (.ok outcome, next))
    (after : Client) (log : after.handled = client.handled ++ outcome.toList) :
    Timed.Covered ⟨after, clock⟩ next := by
  obtain ⟨accepted, guards, earlier, covers⟩ := once.covered session live
  refine ⟨_, guards.handleIncoming together.1 handled, ?_, ?_⟩
  · intro envelope instant member
    rcases List.mem_append.mp member with old | new
    · exact (earlier envelope instant old).trans together
    · rw [(Session.mem_accepting.mp new).2]
      exact Together.refl clock
  · intro dispatch member
    rw [log] at member
    rcases List.mem_append.mp member with old | new
    · rcases covers dispatch old with stale | ⟨instant, inside⟩
      · exact .inl (once.stale_later together old stale)
      · exact .inr ⟨instant, List.mem_append_left _ inside⟩
    · obtain rfl := Option.mem_toList.mp new
      have accepts := Session.accepts_of_spawned handled
      exact .inr ⟨clock, List.mem_append_right _ (Session.mem_accepting.mpr ⟨accepts, rfl⟩)⟩

theorem keeps {client next : Client} {last clock : Clock} (once : Timed.Once ⟨client, last⟩)
    (together : Together last clock) (keeps : Client.Keeps client next) : Timed.Once ⟨next, clock⟩ := by
  constructor
  · simpa only [keeps.handled] using once.nodup
  · simpa only [keeps.handled] using once.wasFresh_later together
  · intro session live
    rcases keeps.session with kept | ended
    · obtain ⟨accepted, guards, earlier, covers⟩ := once.covered session (kept ▸ live)
      refine ⟨accepted, ⟨guards.ttl, guards.fresh, guards.remembers.later together.1⟩, ?_, ?_⟩
      · intro envelope instant inside
        exact (earlier envelope instant inside).trans together
      · intro dispatch member
        rw [keeps.handled] at member
        exact (covers dispatch member).imp_left (once.stale_later together member)
    · rw [ended] at live
      contradiction

/-- A new session remembers nothing, so everything handled has to be stale. -/
theorem connected {client next : Client} {last clock : Clock} (once : Timed.Once ⟨client, last⟩)
    (together : Together last clock) (log : next.handled = client.handled)
    (live : next.phase.session = some (.new nodeToken))
    (stale : ∀ dispatch ∈ client.handled,
      timestampIsFresh (nowUnix clock) dispatch.envelope.timestamp = false) :
    Timed.Once ⟨next, clock⟩ := by
  constructor
  · simpa only [log] using once.nodup
  · simpa only [log] using once.wasFresh_later together
  · intro session opened
    obtain rfl := Option.some.inj (live.symm.trans opened)
    refine ⟨[], Session.Guards.new _ _, by simp, ?_⟩
    intro dispatch member
    rw [log] at member
    exact .inl (stale dispatch member)

theorem received {client next : Client} {last clock : Clock} (once : Timed.Once ⟨client, last⟩)
    (together : Together last clock) (live : client.phase.session = some session)
    (handled : session.handleIncoming serde prims clock text = (.ok outcome, session'))
    (log : next.handled = client.handled ++ outcome.toList)
    (live' : next.phase.session = some session') : Timed.Once ⟨next, clock⟩ := by
  constructor
  · cases outcome with
    | none => simpa [log] using once.nodup
    | some spawned =>
      obtain ⟨-, verified, checked⟩ := Session.accepts_iff.mp (Session.accepts_of_spawned handled)
      have new := once.unhandled together live (Envelope.verify_iff.mp verified).1 checked
      simpa [log, List.nodup_append, once.nodup] using new
  · intro dispatch member
    rw [log] at member
    rcases List.mem_append.mp member with old | new
    · exact once.wasFresh_later together dispatch old
    · obtain rfl := Option.mem_toList.mp new
      obtain ⟨-, verified, -⟩ := Session.accepts_iff.mp (Session.accepts_of_spawned handled)
      exact ⟨clock, Together.refl clock, (Envelope.verify_iff.mp verified).1⟩
  · intro current opened
    obtain rfl := Option.some.inj (live'.symm.trans opened)
    exact once.covered_handled together live handled next log

theorem step {before after : Timed} (once : before.Once)
    (stepped : Guarded (Timed.Step serde prims) ReconnectsStale before label after) : after.Once := by
  obtain ⟨⟨ordered, same, moved⟩, stale⟩ := stepped
  have together : Together _ _ := ⟨ordered, same⟩
  rcases Client.step_cases moved with kept | ⟨rfl, -, log, live⟩ |
    ⟨session, session', text, outcome, live, handled, -, log, live'⟩
  · exact once.keeps together kept
  · exact once.connected together log live (stale rfl)
  · exact once.received together live handled log live'

end Timed.Once

/-- A command is handled at most once as long as no connection opens while a
handled command is still fresh. Whenever one does, replaying that command on the
new connection handles it a second time. -/
theorem handled_at_most_once_iff_reconnects_stale (serde : Serde) (prims : Primitives)
    (nodeToken : String) (start : Clock) :
    (∀ labels timed, Run (Guarded (Timed.Step serde prims) ReconnectsStale)
        ⟨Client.start nodeToken, start⟩ labels timed →
      (timed.client.handled.map Dispatch.envelope).Nodup) ∧
    (∀ labels timed clock, Run (Timed.Step serde prims) ⟨Client.start nodeToken, start⟩ labels timed →
      timed.client.phase = .dialing → Together timed.last clock →
      ¬ ReconnectsStale timed (clock, .dial true) →
      ∃ replay after, Run (Timed.Step serde prims) timed ((clock, .dial true) :: replay) after ∧
        ¬ (after.client.handled.map Dispatch.envelope).Nodup) := by
  constructor
  · intro labels timed run
    have once : timed.Once :=
      run.invariant (fun once moved => once.step moved) (Timed.Once.start nodeToken start)
    exact once.nodup
  · intro labels timed clock run dialing together violated
    have genuine : timed.client.Genuine serde prims := by
      refine run.invariant (P := fun timed => timed.client.Genuine serde prims) ?_
        (Client.genuine_start serde prims nodeToken)
      rintro _ _ _ genuine ⟨-, -, moved⟩
      exact genuine.step moved
    simp only [ReconnectsStale, forall_const, not_forall, Bool.not_eq_false] at violated
    obtain ⟨dispatch, member, fresh⟩ := violated
    obtain ⟨text, parsed, kind, decoded, signed⟩ := genuine.2 dispatch member
    obtain ⟨after, session, replayed, -, -, -, log⟩ := timed.client.connection_run dialing together parsed
      (Envelope.verify_iff.mpr ⟨fresh, signed⟩) kind decoded
    refine ⟨_, ⟨after, clock⟩, replayed, ?_⟩
    intro nodup
    rw [log, List.map_append, List.nodup_append] at nodup
    exact nodup.2.2 _ (List.mem_map_of_mem member) _ List.mem_cons_self rfl

/-- The first connection of a process handles the captured command. -/
theorem captured_command_handled_once : ∃ timed,
    Run (Guarded (Timed.Step capturedSerde capturedPrimitives) ReconnectsStale)
      ⟨Client.start "node-secret", capturedClock 0⟩
      [(capturedClock 1, .dial true), (capturedClock 1, .hello true),
        (capturedClock 1, .incoming (some (.ok (.text capturedText))))] timed ∧
    timed.client.handled.map Dispatch.envelope = [capturedEnvelope] ∧
    (timed.client.handled.map Dispatch.envelope).Nodup := by
  obtain ⟨greeting, serving, after, session, dial, hello, message, -, -, -, log⟩ :=
    (Client.start "node-secret").connection_steps rfl captured_parsed
      (captured_verified 1 (by decide)) rfl captured_decoded
  have stay := Together.refl (capturedClock 1)
  have opens : Together (capturedClock 0) (capturedClock 1) :=
    captured_together (by decide)
  have run : Run (Guarded (Timed.Step capturedSerde capturedPrimitives) ReconnectsStale)
      ⟨Client.start "node-secret", capturedClock 0⟩ _ ⟨after, _⟩ :=
    .next ⟨.step opens.1 opens.2 dial, fun _ _ member => absurd member List.not_mem_nil⟩
      (.next ⟨.step stay.1 stay.2 hello, fun other => by contradiction⟩
        (.single ⟨.step stay.1 stay.2 message, fun other => by contradiction⟩))
  exact ⟨_, run, by rw [log]; rfl, (handled_at_most_once_iff_reconnects_stale capturedSerde
    capturedPrimitives "node-secret" (capturedClock 0)).1 _ _ run⟩

/-- A command is handled, the panel closes the connection, and four seconds later
the same text is handled again on the next connection. -/
theorem captured_command_handled_twice : ∃ timed,
    Run (Timed.Step capturedSerde capturedPrimitives)
      ⟨Client.start "node-secret", capturedClock 0⟩
      ([(capturedClock 1, .dial true), (capturedClock 1, .hello true),
        (capturedClock 1, .incoming (some (.ok (.text capturedText))))] ++
      [(capturedClock 2, .incoming (some (.ok .close))),
        (capturedClock 3, .wake)] ++
      [(capturedClock 5, .dial true), (capturedClock 5, .hello true),
        (capturedClock 5, .incoming (some (.ok (.text capturedText))))]) timed ∧
    timed.client.handled.map Dispatch.envelope = [capturedEnvelope, capturedEnvelope] := by
  have opens : Together (capturedClock 0) (capturedClock 1) :=
    captured_together (by decide)
  obtain ⟨first, session, run, serving, live, token, log⟩ :=
    (Client.start "node-secret").connection_run rfl opens captured_parsed
      (captured_verified 1 (by decide)) rfl captured_decoded
  have closes : Together (capturedClock 1) (capturedClock 2) :=
    captured_together (by decide)
  have closed : first.step capturedSerde capturedPrimitives (capturedClock 2)
      (.incoming (some (.ok .close))) = some first.endSession := by
    simp only [Client.step, serving]
  have sleeps : Together (capturedClock 2) (capturedClock 3) :=
    captured_together (by decide)
  have woken : first.endSession.step capturedSerde capturedPrimitives (capturedClock 3)
      .wake = some { first.endSession with
        backoff := min (first.endSession.backoff * 2) maxBackoff, phase := .dialing } := by
    simp only [Client.step, Client.endSession, live, Client.start, Bool.false_eq_true, if_false]
  have reopens : Together (capturedClock 3) (capturedClock 5) :=
    captured_together (by decide)
  have verified : capturedEnvelope.verify capturedPrimitives (capturedClock 5)
      (Text.bytes first.nodeToken) = true := by
    rw [token]
    exact captured_verified 5 (by decide)
  obtain ⟨second, session', again, -, -, -, log'⟩ := Client.connection_run { first.endSession with
      backoff := min (first.endSession.backoff * 2) maxBackoff, phase := .dialing }
    rfl reopens captured_parsed verified rfl captured_decoded
  refine ⟨_, (run.trans (.next (.step closes.1 closes.2 closed)
    (.single (.step sleeps.1 sleeps.2 woken)))).trans again, ?_⟩
  simp only [log', Client.endSession, log, Client.start, List.nil_append, List.map_cons, List.map_nil,
    List.cons_append]

end SkyDaemon.Agent
