import SkyDaemon.Agent.Session
import SkyDaemon.Foundation.Transition
import SkyDaemon.Protocol.Freshness
import SkyDaemon.Protocol.Binding

/-! Replay protection on one session: the nonce cache outlasts the freshness
window, so nothing accepted there is accepted again. -/
namespace SkyDaemon.Agent
open Protocol Transition

/-- The wall-clock window is at most 61 seconds long, which leaves the monotonic
clock 58 seconds of drift below the cache's two minutes. -/
def maxDrift : Nat := 58 * nanosPerSec

/-- From the first instant to the second the monotonic clock does not go back, and
it gains at most `maxDrift` on the wall clock. -/
def Drifts (earlier later : Clock) : Prop :=
  earlier.mono ≤ later.mono ∧ later.mono + earlier.wall ≤ earlier.mono + later.wall + maxDrift

/-- Both clocks advance together from one instant to the other. -/
def Together (earlier later : Clock) : Prop :=
  earlier.mono ≤ later.mono ∧ later.wall + earlier.mono = earlier.wall + later.mono

theorem Together.refl (clock : Clock) : Together clock clock := ⟨Nat.le_refl _, rfl⟩

theorem Together.trans (first : Together a b) (second : Together b c) : Together a c := by
  obtain ⟨ordered, same⟩ := first
  obtain ⟨ordered', same'⟩ := second
  constructor <;> omega

theorem Together.wall_le (together : Together earlier later) : earlier.wall ≤ later.wall := by
  obtain ⟨ordered, same⟩ := together
  omega

theorem Together.drifts (together : Together earlier later) : Drifts earlier later := by
  obtain ⟨ordered, same⟩ := together
  constructor <;> omega

/-- The acceptances of one session that its nonce cache still answers for. -/
structure Session.Guards (session : Session) (accepted : List (Envelope × Clock)) (last : Nat) :
    Prop where
  ttl : session.incomingNonces.ttl = nonceCacheTtl
  fresh : ∀ envelope clock, (envelope, clock) ∈ accepted →
    timestampIsFresh (nowUnix clock) envelope.timestamp = true
  remembers : session.incomingNonces.Remembers
    (accepted.map fun (envelope, clock) => (envelope.nonce, clock.mono)) last

namespace Session

theorem Guards.new (nodeToken : String) (last : Nat) : (Session.new nodeToken).Guards [] last where
  ttl := rfl
  fresh := by
    intro envelope clock member
    contradiction
  remembers := .nil _ _

/-- The envelope that a message adds to the accepted ones. -/
def accepting (serde : Serde) (prims : Primitives) (clock : Clock) (text : String)
    (session : Session) : List (Envelope × Clock) :=
  ((session.accepts serde prims clock text).map (·, clock)).toList

theorem mem_accepting {session : Session} :
    (envelope, instant) ∈ session.accepting serde prims clock text ↔
      session.accepts serde prims clock text = some envelope ∧ instant = clock := by
  simp [accepting, eq_comm]

theorem Guards.handleIncoming {session next : Session} (guards : session.Guards accepted last)
    (ordered : last ≤ clock.mono)
    (handled : session.handleIncoming serde prims clock text = (result, next)) :
    next.Guards (accepted ++ session.accepting serde prims clock text) clock.mono := by
  have later := guards.remembers.later ordered
  rcases handleIncoming_cases handled with ⟨rfl, nothing, -⟩ | ⟨envelope, parsed, verified, rfl, -⟩
  · rw [accepting, nothing]
    simpa using ⟨guards.ttl, guards.fresh, later⟩
  · have ttl : (session.incomingNonces.checkAndRecord clock.mono envelope.nonce).2.ttl = nonceCacheTtl := by
      rw [NonceCache.checkAndRecord_ttl, guards.ttl]
    cases checked : (session.incomingNonces.checkAndRecord clock.mono envelope.nonce).1 with
    | false =>
      have nothing : session.accepting serde prims clock text = [] := by
        simp [accepting, accepts, parsed, Option.filter, verified, checked]
      rw [nothing, List.append_nil]
      exact ⟨ttl, guards.fresh, later.check envelope.nonce⟩
    | true =>
      have one : session.accepting serde prims clock text = [(envelope, clock)] := by
        simp [accepting, accepts_iff.mpr ⟨parsed, verified, checked⟩]
      rw [one]
      refine ⟨ttl, ?_, ?_⟩
      · intro other instant member
        rcases List.mem_append.mp member with earlier | same
        · exact guards.fresh other instant earlier
        · obtain ⟨rfl, rfl⟩ := Prod.mk.inj (List.mem_singleton.mp same)
          exact (Envelope.verify_iff.mp verified).1
      · rw [List.map_append]
        exact later.accept checked

/-- Freshness bounds the wall time since an acceptance below 61 seconds, the drift
bounds the monotonic time below 119, and the cache holds the nonce for 120. -/
theorem Guards.refuses {session : Session} (guards : session.Guards accepted last)
    (member : (envelope, instant) ∈ accepted) (ordered : last ≤ now.mono)
    (drifts : Drifts instant now)
    (fresh : timestampIsFresh (nowUnix now) envelope.timestamp = true) :
    (session.incomingNonces.checkAndRecord now.mono envelope.nonce).1 = false := by
  have window := fresh_within_minute (guards.fresh envelope instant member) fresh
  have young : now.mono - instant.mono < session.incomingNonces.ttl := by
    rw [guards.ttl]
    obtain ⟨-, gain⟩ := drifts
    unfold Clock.secs at window
    unfold maxDrift at gain
    unfold nonceCacheTtl
    unfold nanosPerSec at *
    omega
  exact (guards.remembers.later ordered).refuses
    (List.mem_map.mpr ⟨(envelope, instant), member, rfl⟩) young

end Session

/-- One session with what it accepted so far. -/
structure Serving where
  session : Session
  isOpen : Bool
  accepted : List (Envelope × Clock)

def Serving.start (nodeToken : String) : Serving := ⟨Session.new nodeToken, true, []⟩

inductive Serving.Step (serde : Serde) (prims : Primitives) :
    Serving → Clock × String → Serving → Prop where
  | message {session next : Session} {accepted : List (Envelope × Clock)}
      {result : Except String (Option Dispatch)} :
      session.handleIncoming serde prims clock text = (result, next) →
      Step serde prims ⟨session, true, accepted⟩ (clock, text)
        ⟨next, result.isOk, accepted ++ session.accepting serde prims clock text⟩

theorem Serving.step (serde : Serde) (prims : Primitives) (clock : Clock) (text : String)
    (session : Session) (accepted : List (Envelope × Clock)) :
    Serving.Step serde prims ⟨session, true, accepted⟩ (clock, text)
      ⟨(session.handleIncoming serde prims clock text).2,
        (session.handleIncoming serde prims clock text).1.isOk,
        accepted ++ session.accepting serde prims clock text⟩ :=
  .message rfl

/-- The run lemma: whatever follows, coherently with the acceptances so far, the
guard carries over to the state reached. -/
theorem Serving.run_refuses {before after : Serving}
    (run : Run (Serving.Step serde prims) before history after)
    (guards : before.session.Guards before.accepted last)
    (ordered : ∀ clock ∈ history.map Prod.fst ++ [now], last ≤ clock.mono)
    (coherent : (before.accepted.map Prod.snd ++ (history.map Prod.fst ++ [now])).Pairwise Drifts)
    (member : (envelope, instant) ∈ after.accepted)
    (fresh : timestampIsFresh (nowUnix now) envelope.timestamp = true) :
    (after.session.incomingNonces.checkAndRecord now.mono envelope.nonce).1 = false := by
  induction run generalizing last with
  | refl serving =>
    refine guards.refuses member (ordered now (by simp)) ?_ fresh
    exact (List.pairwise_append.mp coherent).2.2 instant
      (List.mem_map.mpr ⟨_, member, rfl⟩) now (by simp)
  | next step _ ih =>
    obtain @⟨clock, text, session, next, accepted, result, handled⟩ := step
    have upcoming := (List.pairwise_append.mp coherent).2.1
    refine ih (guards.handleIncoming (ordered clock (by simp)) handled) ?_ ?_ member
    · intro other inside
      exact (List.rel_of_pairwise_cons upcoming inside).1
    · refine coherent.sublist ?_
      rw [List.map_append, List.append_assoc]
      refine List.Sublist.append (.refl _) ?_
      -- the message's instant joins the accepted ones or is dropped
      unfold Session.accepting
      cases session.accepts serde prims clock text with
      | none => exact List.sublist_cons_self _ _
      | some accepted => exact .refl _

/-- No fresh envelope outlives its nonce-cache entry. -/
theorem accepted_fresh_nonce_refused (serde : Serde) (prims : Primitives) (nodeToken : String)
    (history : List (Clock × String)) (serving : Serving)
    (run : Run (Serving.Step serde prims) (Serving.start nodeToken) history serving) (now : Clock)
    (coherent : (history.map Prod.fst ++ [now]).Pairwise Drifts)
    (envelope : Envelope) (instant : Clock) (accepted : (envelope, instant) ∈ serving.accepted)
    (fresh : timestampIsFresh (nowUnix now) envelope.timestamp = true) :
    (serving.session.incomingNonces.checkAndRecord now.mono envelope.nonce).1 = false :=
  Serving.run_refuses run (Session.Guards.new nodeToken 0) (fun _ _ => Nat.zero_le _) coherent
    accepted fresh

/-! ## Captured commands

A command with its real digests, and the decoders restricted to its two texts. -/

def capturedPayload : String :=
  "\x7b\"command_id\":\"cmd-1\",\"action\":\"kill\",\"server_id\":\"server-1\"\x7d"

def capturedDigest : List UInt8 :=
  [0xb3, 0x9a, 0x6e, 0x41, 0xba, 0x1b, 0x1b, 0x72, 0xb0, 0x69, 0xb3, 0x67, 0xa3, 0xff, 0x1b, 0x4d,
    0xd5, 0xfe, 0x0b, 0xd7, 0x9b, 0xde, 0x30, 0x3a, 0x53, 0x74, 0x3f, 0xd5, 0x72, 0xb7, 0x4f, 0xeb]

def capturedMac : List UInt8 :=
  [0xfa, 0x95, 0xee, 0x08, 0x64, 0xba, 0xb9, 0x91, 0x88, 0xf1, 0x08, 0x98, 0xeb, 0x60, 0x0d, 0x2a,
    0x50, 0x54, 0x57, 0x3a, 0xf6, 0x23, 0xb2, 0xa3, 0x45, 0xac, 0x26, 0x3e, 0xbe, 0x9c, 0xc9, 0xd4]

def capturedMessage : List UInt8 := Text.bytes
  "command.1700000000.000102030405060708090a0b0c0d0e0f.b39a6e41ba1b1b72b069b367a3ff1b4dd5fe0bd79bde303a53743fd572b74feb"

def capturedPrimitives : Primitives where
  sha256 := recordedAt (Text.bytes capturedPayload) capturedDigest
  hmacSha256 := fun _ => recordedAt capturedMessage capturedMac

def capturedEnvelope : Envelope where
  kind := "command"
  timestamp := 1700000000
  nonce := "000102030405060708090a0b0c0d0e0f"
  payload := capturedPayload
  sig := "fa95ee0864bab99188f10898eb600d2a5054573af623b2a345ac263ebe9cc9d4"

def capturedText : String :=
  "\x7b\"type\":\"command\",\"timestamp\":1700000000,\"nonce\":\"000102030405060708090a0b0c0d0e0f\",\"payload\":" ++
    capturedPayload ++
    ",\"sig\":\"fa95ee0864bab99188f10898eb600d2a5054573af623b2a345ac263ebe9cc9d4\"\x7d"

def capturedCommand : CommandPayload where
  commandId := "cmd-1"
  action := .kill
  serverId := "server-1"

def capturedSerde : Serde where
  envelope := fun text => if text = capturedText then some capturedEnvelope else none
  command := fun payload => if payload = capturedPayload then some capturedCommand else none

/-- The given number of seconds after the command was signed. -/
def capturedClock (secs : UInt8) : Clock where
  wall := (1700000000 + secs.toNat) * nanosPerSec
  mono := secs.toNat * nanosPerSec
  wall_lt := by
    have small := secs.toNat_lt
    unfold nanosPerSec
    omega

theorem captured_together {m n : UInt8} (ordered : m ≤ n) :
    Together (capturedClock m) (capturedClock n) := by
  have ordered := UInt8.le_iff_toNat_le.mp ordered
  unfold capturedClock nanosPerSec
  constructor <;> dsimp only <;> omega

theorem captured_parsed : capturedSerde.envelope capturedText = some capturedEnvelope := by
  simp only [capturedSerde, if_true]

theorem captured_signed : sign capturedPrimitives (Text.bytes "node-secret") capturedEnvelope.kind
    capturedEnvelope.timestamp capturedEnvelope.nonce (Text.bytes capturedEnvelope.payload) =
      capturedEnvelope.sig := by
  decide

theorem captured_verified (secs : UInt8) (recent : secs.toNat ≤ 30) :
    capturedEnvelope.verify capturedPrimitives (capturedClock secs) (Text.bytes "node-secret") = true := by
  refine Envelope.verify_iff.mpr ⟨(timestampIsFresh_iff _ _).mpr (.inl ?_), captured_signed⟩
  have stamp : capturedEnvelope.timestamp.toInt = 1700000000 := rfl
  have reading : (capturedClock secs).secs = 1700000000 + secs.toNat := by
    unfold Clock.secs capturedClock nanosPerSec
    dsimp only
    omega
  omega

theorem captured_decoded : capturedSerde.command capturedEnvelope.payload = some capturedCommand := by
  simp only [capturedSerde, capturedEnvelope, if_true]

/-- The session that accepted the captured command refuses it half a minute later. -/
theorem captured_nonce_refused : ∃ serving,
    Run (Serving.Step capturedSerde capturedPrimitives) (Serving.start "node-secret")
      [(capturedClock 0, capturedText)] serving ∧
    (serving.session.incomingNonces.checkAndRecord (capturedClock 30).mono
      capturedEnvelope.nonce).1 = false := by
  have run := Run.single (Serving.step capturedSerde capturedPrimitives (capturedClock 0)
    capturedText (Session.new "node-secret") [])
  have taken : (Session.new "node-secret").accepts capturedSerde capturedPrimitives
      (capturedClock 0) capturedText = some capturedEnvelope :=
    Session.accepts_iff.mpr
      ⟨captured_parsed, captured_verified 0 (by decide), NonceCache.checkAndRecord_unseen rfl⟩
  refine ⟨_, run, ?_⟩
  refine accepted_fresh_nonce_refused capturedSerde capturedPrimitives "node-secret" _ _ run
    (capturedClock 30) ?_ capturedEnvelope (capturedClock 0) ?_ ?_
  · simp only [List.map_cons, List.map_nil, List.singleton_append, List.pairwise_pair]
    exact (captured_together (by decide)).drifts
  · exact List.mem_append_right [] (Session.mem_accepting.mpr ⟨taken, rfl⟩)
  · exact (Envelope.verify_iff.mp (captured_verified 30 (by decide))).1

end SkyDaemon.Agent
