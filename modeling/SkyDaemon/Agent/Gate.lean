import SkyDaemon.Agent.Client
import SkyDaemon.Agent.Replay

/-! The inbound gate over a whole connection. What ends a session and what reaches the
dispatcher is decided by the messages alone: their envelopes, the signature and clock
of each, and the nonces of those before it. -/
namespace SkyDaemon.Agent
open Protocol Transition

/-- A text message with the instant at which it is read. -/
abbrev Message := Clock × String

/-- What a sequence of messages comes to. -/
structure Received where
  commands : List CommandPayload
  /-- The error that ended the session. -/
  ended : Option String
  session : Session

def Received.after (commands : List CommandPayload) (later : Received) : Received :=
  { later with commands := commands ++ later.commands }

/-- The text messages of one connection, up to the first that tears it down. -/
def Session.receiveAll (serde : Serde) (prims : Primitives) : Session → List Message → Received
  | session, [] => ⟨[], none, session⟩
  | session, (clock, text) :: rest =>
      match session.handleIncoming serde prims clock text with
      | (.error error, next) => ⟨[], some error, next⟩
      | (.ok outcome, next) => .after (outcome.map Dispatch.cmd).toList (next.receiveAll serde prims rest)

theorem Session.receiveAll_ok {session next : Session} {message : Message}
    (handled : session.handleIncoming serde prims message.1 message.2 = (.ok outcome, next))
    (rest : List Message) : session.receiveAll serde prims (message :: rest) =
      .after (outcome.map Dispatch.cmd).toList (next.receiveAll serde prims rest) := by
  rw [receiveAll, handled]

theorem Session.receiveAll_error {session next : Session} {message : Message}
    (handled : session.handleIncoming serde prims message.1 message.2 = (.error error, next))
    (rest : List Message) :
    session.receiveAll serde prims (message :: rest) = ⟨[], some error, next⟩ := by
  rw [receiveAll, handled]

section Messages
variable (serde : Serde) (prims : Primitives) (nodeToken : String)

/-- The message is an envelope that fails its check, or one whose nonce an earlier
message had less than the TTL before. -/
def Rejected (before : List Message) (message : Message) : Prop :=
  ∃ envelope, serde.envelope message.2 = some envelope ∧
    (envelope.verify prims message.1 (Text.bytes nodeToken) = false ∨
      ∃ earlier ∈ before, ∃ recorded, serde.envelope earlier.2 = some recorded ∧
        recorded.nonce = envelope.nonce ∧ message.1.mono - earlier.1.mono < nonceCacheTtl)

/-- The command of a message that is an envelope of the right type with a payload that decodes. -/
def commandOf (message : Message) : Option CommandPayload :=
  (serde.envelope message.2).bind fun envelope =>
    if envelope.kind = EnvelopeType.command then serde.command envelope.payload else none

/-- The messages before the first rejected one, and the others. -/
structure FirstRejected (messages before rest : List Message) : Prop where
  split : messages = before ++ rest
  passed : ∀ first message later, before = first ++ message :: later →
    ¬ Rejected serde prims nodeToken first message
  rejected : ∀ message later, rest = message :: later → Rejected serde prims nodeToken before message

end Messages

variable {serde : Serde} {prims : Primitives} {nodeToken : String}

theorem firstRejected_exists (messages : List Message) :
    ∃ before rest, FirstRejected serde prims nodeToken messages before rest := by
  induction messages using List.reverseRecOn with
  | nil => exact ⟨[], [], rfl, by simp, by simp⟩
  | append_singleton messages message ih =>
    obtain ⟨before, rest, rfl, passed, rejected⟩ := ih
    cases rest with
    | cons first rest =>
      refine ⟨before, first :: rest ++ [message], by simp, passed, fun _ _ same => ?_⟩
      cases same
      exact rejected first rest rfl
    | nil =>
      by_cases refused : Rejected serde prims nodeToken before message
      · refine ⟨before, [message], by simp, passed, fun _ _ same => ?_⟩
        cases same
        exact refused
      · refine ⟨before ++ [message], [], by simp, ?_, by simp⟩
        intro first other later same
        rcases List.eq_nil_or_concat later with rfl | ⟨later, last, rfl⟩
        · obtain ⟨front, last⟩ := List.append_inj' same rfl
          cases last
          exact front ▸ refused
        · have cut : before ++ [message] = (first ++ other :: later) ++ [last] := by simpa using same
          exact passed first other later (List.append_inj' cut rfl).1

/-- The nonces of the messages that are envelopes, with the instants of their arrival. -/
def recordedNonces (serde : Serde) (messages : List Message) : List (String × Nat) :=
  messages.filterMap fun message => (serde.envelope message.2).map fun envelope => (envelope.nonce, message.1.mono)

theorem mem_recordedNonces : (nonce, instant) ∈ recordedNonces serde messages ↔
    ∃ message ∈ messages, ∃ envelope, serde.envelope message.2 = some envelope ∧
      envelope.nonce = nonce ∧ message.1.mono = instant := by
  simp [recordedNonces]

/-- The session after messages of which none was rejected. -/
structure Recalls (serde : Serde) (nodeToken : String) (session : Session) (past : List Message) : Prop where
  token : session.nodeToken = nodeToken
  ttl : session.incomingNonces.ttl = nonceCacheTtl
  remembers : ∀ now, (∀ message ∈ past, message.1.mono ≤ now) →
    session.incomingNonces.Remembers (recordedNonces serde past) now
  recorded : session.incomingNonces.Recorded (recordedNonces serde past)

theorem Recalls.new (serde : Serde) (nodeToken : String) : Recalls serde nodeToken (.new nodeToken) [] where
  token := rfl
  ttl := rfl
  remembers := fun _ _ => .nil _ _
  recorded := by
    intro nonce seenAt found
    cases found

variable {session : Session} {past : List Message} {message : Message}

/-- The cache lets a nonce pass exactly when no message before had it within the TTL. -/
theorem Recalls.passes_iff (recalls : Recalls serde nodeToken session past)
    (ordered : ∀ earlier ∈ past, earlier.1.mono ≤ message.1.mono) (nonce : String) :
    (session.incomingNonces.checkAndRecord message.1.mono nonce).1 = true ↔
      ¬ ∃ earlier ∈ past, ∃ recorded, serde.envelope earlier.2 = some recorded ∧
        recorded.nonce = nonce ∧ message.1.mono - earlier.1.mono < nonceCacheTtl := by
  rw [NonceCache.checkAndRecord_iff (recalls.remembers _ ordered) recalls.recorded, recalls.ttl]
  constructor
  · rintro old ⟨earlier, member, envelope, parsed, same, young⟩
    have := old _ (mem_recordedNonces.mpr ⟨earlier, member, envelope, parsed, same, rfl⟩)
    omega
  · intro unseen instant member
    obtain ⟨earlier, known, envelope, parsed, same, rfl⟩ := mem_recordedNonces.mp member
    by_contra young
    exact unseen ⟨earlier, known, envelope, parsed, same, by omega⟩

theorem Recalls.accept (recalls : Recalls serde nodeToken session past)
    (ordered : ∀ earlier ∈ past, earlier.1.mono ≤ message.1.mono)
    (parsed : serde.envelope message.2 = some envelope)
    (passes : (session.incomingNonces.checkAndRecord message.1.mono envelope.nonce).1 = true) :
    Recalls serde nodeToken { session with
      incomingNonces := (session.incomingNonces.checkAndRecord message.1.mono envelope.nonce).2 }
      (past ++ [message]) := by
  have nonces : recordedNonces serde (past ++ [message]) =
      recordedNonces serde past ++ [(envelope.nonce, message.1.mono)] := by
    simp [recordedNonces, parsed]
  constructor
  · exact recalls.token
  · exact (NonceCache.checkAndRecord_ttl _ _ _).trans recalls.ttl
  · intro now later
    rw [nonces]
    have kept := (recalls.remembers _ ordered).accept passes
    exact kept.later (later message (List.mem_append_right _ (List.mem_singleton_self _)))
  · rw [nonces]
    exact recalls.recorded.check passes

theorem Recalls.ignore (recalls : Recalls serde nodeToken session past)
    (unparsed : serde.envelope message.2 = none) : Recalls serde nodeToken session (past ++ [message]) := by
  have nonces : recordedNonces serde (past ++ [message]) = recordedNonces serde past := by
    simp [recordedNonces, unparsed]
  constructor
  · exact recalls.token
  · exact recalls.ttl
  · intro now later
    rw [nonces]
    exact recalls.remembers now fun earlier member => later earlier (List.mem_append_left _ member)
  · rw [nonces]
    exact recalls.recorded

/-- A message that is not rejected is handled: it leaves its nonce in the cache if it is
an envelope, and spawns its command if it has one. -/
theorem Recalls.handle (recalls : Recalls serde nodeToken session past)
    (ordered : ∀ earlier ∈ past, earlier.1.mono ≤ message.1.mono)
    (passed : ¬ Rejected serde prims nodeToken past message) :
    ∃ outcome next, session.handleIncoming serde prims message.1 message.2 = (.ok outcome, next) ∧
      outcome.map Dispatch.cmd = commandOf serde message ∧
      Recalls serde nodeToken next (past ++ [message]) := by
  cases parsed : serde.envelope message.2 with
  | none =>
    refine ⟨none, session, ?_, ?_, recalls.ignore parsed⟩
    · simp only [Session.handleIncoming, parsed]
    · simp [commandOf, parsed]
  | some envelope =>
    simp only [Rejected, parsed, Option.some.injEq, exists_eq_left', not_or, Bool.not_eq_false] at passed
    obtain ⟨verified, unseen⟩ := passed
    rw [← recalls.token] at verified
    have passes := (recalls.passes_iff ordered envelope.nonce).mpr unseen
    have next := recalls.accept ordered parsed passes
    unfold commandOf
    by_cases kind : envelope.kind = EnvelopeType.command
    · cases decoded : serde.command envelope.payload with
      | none =>
        refine ⟨none, _, ?_, ?_, next⟩
        · simp [Session.handleIncoming, parsed, verified, passes, kind, decoded]
        · simp [parsed, decoded]
      | some cmd =>
        refine ⟨some ⟨envelope, cmd⟩, _, Session.handleIncoming_spawns parsed verified passes kind decoded, ?_, next⟩
        simp [parsed, kind, decoded]
    · refine ⟨none, _, ?_, ?_, next⟩
      · simp [Session.handleIncoming, parsed, verified, passes, kind]
      · simp [parsed, kind]

theorem Recalls.refuse (recalls : Recalls serde nodeToken session past)
    (ordered : ∀ earlier ∈ past, earlier.1.mono ≤ message.1.mono)
    (rejected : Rejected serde prims nodeToken past message) :
    ∃ error next, session.handleIncoming serde prims message.1 message.2 = (.error error, next) := by
  obtain ⟨envelope, parsed, failed⟩ := rejected
  unfold Session.handleIncoming
  rw [parsed]
  cases verified : envelope.verify prims message.1 (Text.bytes session.nodeToken) with
  | false =>
    simp only [verified, Bool.not_false, if_true]
    exact ⟨_, _, rfl⟩
  | true =>
    rcases failed with unverified | seen
    · rw [recalls.token, unverified] at verified
      contradiction
    · have stopped : (session.incomingNonces.checkAndRecord message.1.mono envelope.nonce).1 = false := by
        rw [← Bool.not_eq_true, recalls.passes_iff ordered, not_not]
        exact seen
      simp only [verified, stopped, Bool.not_true, Bool.not_false, Bool.false_eq_true, if_false, if_true]
      exact ⟨_, _, rfl⟩

/-- The run lemma: messages of which none is rejected are all handled. -/
theorem Recalls.receiveAll (recalls : Recalls serde nodeToken session past)
    (ordered : (past ++ (before ++ rest)).Pairwise fun a b => a.1.mono ≤ b.1.mono)
    (passed : ∀ first message later, before = first ++ message :: later →
      ¬ Rejected serde prims nodeToken (past ++ first) message) :
    ∃ next, Recalls serde nodeToken next (past ++ before) ∧
      session.receiveAll serde prims (before ++ rest) =
        .after (before.filterMap (commandOf serde)) (next.receiveAll serde prims rest) := by
  induction before generalizing session past with
  | nil => exact ⟨session, by simpa using recalls, rfl⟩
  | cons message before ih =>
    have earlier : ∀ old ∈ past, old.1.mono ≤ message.1.mono := by
      intro old member
      exact (List.pairwise_append.mp ordered).2.2 old member message List.mem_cons_self
    obtain ⟨outcome, mid, handled, command, recalls'⟩ := recalls.handle earlier
      (by simpa using passed [] message before rfl)
    obtain ⟨next, reached, result⟩ := ih recalls' (by simpa using ordered) (by
      intro first other later same
      have := passed (message :: first) other later (by rw [same]; rfl)
      simpa using this)
    refine ⟨next, by simpa using reached, ?_⟩
    rw [List.cons_append, Session.receiveAll_ok handled, result, List.filterMap_cons, ← command]
    cases outcome <;> simp [Received.after]

/-- A message that does not parse changes nothing. -/
theorem Session.receiveAll_unparsed (session : Session) (junk rest : List Message)
    (unparsed : ∀ message ∈ junk, serde.envelope message.2 = none) :
    session.receiveAll serde prims (junk ++ rest) = session.receiveAll serde prims rest := by
  induction junk with
  | nil => rfl
  | cons message junk ih =>
    have silent : session.handleIncoming serde prims message.1 message.2 = (.ok none, session) := by
      simp only [handleIncoming, unparsed message List.mem_cons_self]
    rw [List.cons_append, receiveAll_ok silent,
      ih fun other member => unparsed other (List.mem_cons_of_mem _ member)]
    rfl

theorem Session.receiveAll_inserted (session : Session) (first junk rest : List Message)
    (unparsed : ∀ message ∈ junk, serde.envelope message.2 = none) :
    session.receiveAll serde prims (first ++ (junk ++ rest)) = session.receiveAll serde prims (first ++ rest) := by
  induction first generalizing session with
  | nil => exact session.receiveAll_unparsed junk rest unparsed
  | cons message first ih =>
    rw [List.cons_append, List.cons_append, receiveAll, receiveAll]
    split
    · rfl
    · rw [ih]

/-- The messages before the first rejected one are handled, and that one ends the session. -/
theorem FirstRejected.receiveAll (cut : FirstRejected serde prims nodeToken messages before rest)
    (ordered : messages.Pairwise fun a b => a.1.mono ≤ b.1.mono) :
    ((Session.new nodeToken).receiveAll serde prims messages).commands =
        before.filterMap (commandOf serde) ∧
      (((Session.new nodeToken).receiveAll serde prims messages).ended.isSome = true ↔ rest ≠ []) := by
  obtain ⟨rfl, passed, rejected⟩ := cut
  obtain ⟨next, recalls, result⟩ := (Recalls.new serde nodeToken).receiveAll ordered passed
  rw [result]
  cases rest with
  | nil => simp [Session.receiveAll, Received.after]
  | cons message rest =>
    have earlier : ∀ old ∈ before, old.1.mono ≤ message.1.mono := by
      intro old member
      exact (List.pairwise_append.mp ordered).2.2 old member message List.mem_cons_self
    obtain ⟨error, last, refused⟩ := recalls.refuse earlier (rejected message rest rfl)
    simp [Session.receiveAll_error refused, Received.after]

/-- The select loop hands the text frames of a connection to the gate one by one. -/
theorem Client.receiveAll_run {client : Client} (serving : client.phase = .serving session)
    (messages : List Message) :
    ∃ taken after, taken <+: messages ∧
      Run (Client.Steps serde prims) client
        (taken.map fun message => (message.1, .incoming (some (.ok (.text message.2))))) after ∧
      after.handled.map Dispatch.cmd = client.handled.map Dispatch.cmd ++
        (session.receiveAll serde prims messages).commands ∧
      match (session.receiveAll serde prims messages).ended with
      | none => taken = messages ∧ after.phase = .serving (session.receiveAll serde prims messages).session
      | some _ => after.phase = .sleeping := by
  induction messages generalizing client session with
  | nil => exact ⟨[], client, List.prefix_rfl, .refl client, by simp [Session.receiveAll], rfl, serving⟩
  | cons message rest ih =>
    have stepped : client.step serde prims message.1 (.incoming (some (.ok (.text message.2)))) =
        some (client.receive serde prims message.1 session message.2) := by
      simp only [step, serving]
    cases handled : session.handleIncoming serde prims message.1 message.2 with
    | mk result next =>
      cases result with
      | error error =>
        rw [Session.receiveAll_error handled]
        refine ⟨[message], client.endSession, by simp, .single ?_, by simp [endSession], rfl⟩
        simp only [receive, handled] at stepped
        exact stepped
      | ok outcome =>
        have mid : (client.receive serde prims message.1 session message.2).phase = .serving next ∧
            (client.receive serde prims message.1 session message.2).handled =
              client.handled ++ outcome.toList := by
          cases outcome <;> simp [receive, handled, spawn]
        obtain ⟨taken, after, inside, run, log, ends⟩ := ih mid.1
        rw [Session.receiveAll_ok handled]
        refine ⟨message :: taken, after, by simpa using inside, .next stepped run, ?_, ?_⟩
        · rw [log, mid.2]
          cases outcome <;> simp [Received.after]
        · dsimp only [Received.after]
          split
          · rename_i still
            rw [still] at ends
            exact ⟨by rw [ends.1], ends.2⟩
          · rename_i error still
            rw [still] at ends
            exact ends

/-- The gate of one connection. The commands handed to the dispatcher are those of the
messages before the first rejected one, which ends the session, also when the select
loop of a client takes the messages; an envelope that fails its check leaves the cache
alone, and so does text that is no envelope. -/
theorem gate_until_first_rejected (serde : Serde) (prims : Primitives) (nodeToken : String)
    (messages : List Message) (ordered : messages.Pairwise fun a b => a.1.mono ≤ b.1.mono) :
    (∃ before rest, FirstRejected serde prims nodeToken messages before rest) ∧
    (∀ before rest, FirstRejected serde prims nodeToken messages before rest →
      ((Session.new nodeToken).receiveAll serde prims messages).commands =
        before.filterMap (commandOf serde) ∧
      (((Session.new nodeToken).receiveAll serde prims messages).ended.isSome = true ↔ rest ≠ []) ∧
      ∀ client : Client, client.phase = .serving (Session.new nodeToken) →
        ∃ taken after, taken <+: messages ∧
          Run (Client.Steps serde prims) client
            (taken.map fun message => (message.1, .incoming (some (.ok (.text message.2))))) after ∧
          after.handled.map Dispatch.cmd =
            client.handled.map Dispatch.cmd ++ before.filterMap (commandOf serde) ∧
          (after.phase = .sleeping ↔ rest ≠ [])) ∧
    (∀ session : Session, ∀ clock text envelope, serde.envelope text = some envelope →
      envelope.verify prims clock (Text.bytes session.nodeToken) = false →
      (session.handleIncoming serde prims clock text).2.incomingNonces = session.incomingNonces) ∧
    ∀ first junk rest, messages = first ++ rest → (∀ message ∈ junk, serde.envelope message.2 = none) →
      (Session.new nodeToken).receiveAll serde prims (first ++ (junk ++ rest)) =
        (Session.new nodeToken).receiveAll serde prims messages := by
  refine ⟨firstRejected_exists messages, ?_, ?_, ?_⟩
  · intro before rest cut
    obtain ⟨commands, ended⟩ := cut.receiveAll ordered
    refine ⟨commands, ended, ?_⟩
    intro client serving
    obtain ⟨taken, after, inside, run, log, ends⟩ := Client.receiveAll_run serving messages
    refine ⟨taken, after, inside, run, by rw [log, commands], ?_⟩
    rw [← ended]
    split at ends
    · rename_i still
      simp [still, ends.2]
    · rename_i error still
      simp [still, ends]
  · intro session clock text envelope parsed unverified
    simp [Session.handleIncoming, parsed, unverified]
  · rintro first junk rest rfl unparsed
    exact (Session.new nodeToken).receiveAll_inserted first junk rest unparsed

/-- Text that is no envelope, the captured command, and the same command again. -/
def replayedMessages : List Message :=
  [(capturedClock 0, "ping"), (capturedClock 1, capturedText), (capturedClock 2, capturedText)]

theorem replayed_message_ends_session :
    ((Session.new "node-secret").receiveAll capturedSerde capturedPrimitives replayedMessages).commands =
        [capturedCommand] ∧
      ((Session.new "node-secret").receiveAll capturedSerde capturedPrimitives
        replayedMessages).ended.isSome = true := by
  have unparsed : capturedSerde.envelope "ping" = none := by decide +kernel
  have cut : FirstRejected capturedSerde capturedPrimitives "node-secret" replayedMessages
      [(capturedClock 0, "ping"), (capturedClock 1, capturedText)] [(capturedClock 2, capturedText)] := by
    constructor
    · rfl
    · rintro first message later same ⟨envelope, parsed, failed⟩
      match first, same with
      | [], same =>
        cases same
        rw [unparsed] at parsed
        cases parsed
      | [_], same =>
        cases same
        have same : capturedEnvelope = envelope := Option.some.inj (captured_parsed.symm.trans parsed)
        subst same
        rcases failed with unverified | ⟨earlier, member, recorded, known, -⟩
        · exact Bool.false_ne_true (unverified.symm.trans (captured_verified 1 (by decide)))
        · obtain rfl := List.mem_singleton.mp member
          rw [unparsed] at known
          cases known
      | _ :: _ :: _, same => simp at same
    · intro message later same
      rw [← (List.cons.inj same).1]
      refine ⟨capturedEnvelope, captured_parsed, .inr ⟨(capturedClock 1, capturedText), by simp,
        capturedEnvelope, captured_parsed, rfl, ?_⟩⟩
      decide
  have settled := (gate_until_first_rejected capturedSerde capturedPrimitives "node-secret" replayedMessages
    (by simp [replayedMessages, capturedClock, nanosPerSec])).2.1 _ _ cut
  have nothing : commandOf capturedSerde (capturedClock 0, "ping") = none := by
    rw [commandOf, unparsed]
    rfl
  have command : commandOf capturedSerde (capturedClock 1, capturedText) = some capturedCommand := by
    have kind : capturedEnvelope.kind = EnvelopeType.command := rfl
    rw [commandOf, captured_parsed, Option.bind_some, if_pos kind]
    exact captured_decoded
  refine ⟨settled.1.trans ?_, settled.2.1.mpr (by simp)⟩
  rw [List.filterMap_cons_none nothing, List.filterMap_cons_some command, List.filterMap_nil]

end SkyDaemon.Agent
