import SkyDaemon.Foundation.Effect
import SkyDaemon.Agent.NonceCache
import SkyDaemon.Protocol.Payloads
import SkyDaemon.Protocol.Envelope

/-! One connection's inbound gate. Parsing of JSON belongs to another crate and is
a parameter: an envelope text may parse to any envelope, a payload to any command. -/
namespace SkyDaemon.Agent
open Protocol

structure Serde where
  envelope : String → Option Envelope
  command : String → Option CommandPayload

/-- Two minutes, in nanoseconds. -/
def nonceCacheTtl : Nat := 120 * nanosPerSec

structure Session where
  nodeToken : String
  incomingNonces : NonceCache

def Session.new (nodeToken : String) : Session := ⟨nodeToken, NonceCache.new nonceCacheTtl⟩

/-- A command handed to `Dispatcher::handle`, with the envelope that carried it. -/
structure Dispatch where
  envelope : Envelope
  cmd : CommandPayload
  deriving DecidableEq

/-- `handle_incoming`. The result is the spawned command, if any; an error tears
the connection down. -/
def Session.handleIncoming (serde : Serde) (prims : Primitives) (clock : Clock) (text : String) :
    Effect Session (Option Dispatch) := fun session =>
  match serde.envelope text with
  | none => (.ok none, session)
  | some envelope =>
    if !envelope.verify prims clock (Text.bytes session.nodeToken) then
      (.error ("rejecting envelope with invalid signature or stale timestamp (type=" ++
        envelope.kind ++ ")"), session)
    else
      let checked := session.incomingNonces.checkAndRecord clock.mono envelope.nonce
      let session := { session with incomingNonces := checked.2 }
      if !checked.1 then
        (.error ("rejecting replayed nonce (type=" ++ envelope.kind ++ ")"), session)
      else if envelope.kind != EnvelopeType.command then (.ok none, session)
      else match serde.command envelope.payload with
        | none => (.ok none, session)
        | some cmd => (.ok (some ⟨envelope, cmd⟩), session)

/-- The envelope that a message carries past both checks, and so has its nonce recorded. -/
def Session.accepts (serde : Serde) (prims : Primitives) (clock : Clock) (text : String)
    (session : Session) : Option Envelope :=
  (serde.envelope text).filter fun envelope =>
    envelope.verify prims clock (Text.bytes session.nodeToken) &&
      (session.incomingNonces.checkAndRecord clock.mono envelope.nonce).1

theorem Session.accepts_iff {session : Session} :
    session.accepts serde prims clock text = some envelope ↔
      serde.envelope text = some envelope ∧
      envelope.verify prims clock (Text.bytes session.nodeToken) = true ∧
      (session.incomingNonces.checkAndRecord clock.mono envelope.nonce).1 = true := by
  simp only [accepts, Option.filter_eq_some_iff, Bool.and_eq_true]

/-- What one message can do: nothing, or one nonce-cache call for a verified
envelope. A command is spawned only for an accepted command envelope. -/
theorem Session.handleIncoming_cases {session next : Session} {result : Except String (Option Dispatch)}
    (handled : session.handleIncoming serde prims clock text = (result, next)) :
    (next = session ∧ session.accepts serde prims clock text = none ∧
      ∀ spawned, result ≠ .ok (some spawned)) ∨
    (∃ envelope, serde.envelope text = some envelope ∧
      envelope.verify prims clock (Text.bytes session.nodeToken) = true ∧
      next = { session with
        incomingNonces := (session.incomingNonces.checkAndRecord clock.mono envelope.nonce).2 } ∧
      ∀ spawned, result = .ok (some spawned) →
        (session.incomingNonces.checkAndRecord clock.mono envelope.nonce).1 = true ∧
        envelope.kind = EnvelopeType.command ∧ serde.command envelope.payload = some spawned.cmd ∧
        spawned.envelope = envelope) := by
  cases parsed : serde.envelope text with
  | none =>
    simp only [handleIncoming, parsed, Prod.mk.injEq] at handled
    obtain ⟨rfl, rfl⟩ := handled
    exact .inl ⟨rfl, by simp [accepts, parsed], fun _ => by simp⟩
  | some envelope =>
    cases verified : envelope.verify prims clock (Text.bytes session.nodeToken) with
    | false =>
      simp only [handleIncoming, parsed, verified, Bool.not_false, if_true, Prod.mk.injEq] at handled
      obtain ⟨rfl, rfl⟩ := handled
      exact .inl ⟨rfl, by simp [accepts, parsed, Option.filter, verified], fun _ => by simp⟩
    | true =>
      refine .inr ⟨envelope, rfl, verified, ?_⟩
      simp only [handleIncoming, parsed, verified, Bool.not_true, Bool.false_eq_true,
        if_false] at handled
      cases fresh : (session.incomingNonces.checkAndRecord clock.mono envelope.nonce).1 with
      | false =>
        simp only [fresh, Bool.not_false, if_true, Prod.mk.injEq] at handled
        obtain ⟨rfl, rfl⟩ := handled
        exact ⟨rfl, fun _ => by simp⟩
      | true =>
        simp only [fresh, Bool.not_true, Bool.false_eq_true, if_false] at handled
        split at handled
        · obtain ⟨rfl, rfl⟩ := Prod.mk.inj handled
          exact ⟨rfl, fun _ => by simp⟩
        · rename_i kind
          split at handled
          · obtain ⟨rfl, rfl⟩ := Prod.mk.inj handled
            exact ⟨rfl, fun _ => by simp⟩
          · rename_i decoded
            obtain ⟨rfl, rfl⟩ := Prod.mk.inj handled
            refine ⟨rfl, fun spawned same => ?_⟩
            rw [← Option.some.inj (Except.ok.inj same)]
            exact ⟨rfl, by simpa using kind, decoded, rfl⟩

theorem Session.accepts_of_spawned {session next : Session}
    (handled : session.handleIncoming serde prims clock text = (.ok (some dispatch), next)) :
    session.accepts serde prims clock text = some dispatch.envelope := by
  rcases handleIncoming_cases handled with ⟨-, -, silent⟩ | ⟨envelope, parsed, verified, -, spawns⟩
  · exact absurd rfl (silent dispatch)
  · obtain ⟨checked, -, -, rfl⟩ := spawns dispatch rfl
    exact accepts_iff.mpr ⟨parsed, verified, checked⟩

/-- An accepted command envelope whose payload decodes is spawned. -/
theorem Session.handleIncoming_spawns {session : Session} {envelope : Envelope}
    (parsed : serde.envelope text = some envelope)
    (verified : envelope.verify prims clock (Text.bytes session.nodeToken) = true)
    (fresh : (session.incomingNonces.checkAndRecord clock.mono envelope.nonce).1 = true)
    (kind : envelope.kind = EnvelopeType.command)
    (decoded : serde.command envelope.payload = some cmd) :
    session.handleIncoming serde prims clock text = (.ok (some ⟨envelope, cmd⟩),
      { session with
        incomingNonces := (session.incomingNonces.checkAndRecord clock.mono envelope.nonce).2 }) := by
  simp [handleIncoming, parsed, verified, fresh, kind, decoded]

end SkyDaemon.Agent
