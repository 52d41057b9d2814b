import SkyDaemon.Agent.Dispatcher

/-! Console input down to the single `poll_write`. `write_all` hands the rest of its buffer to the
stream until all of it is taken, and any other task may run between two attempts; what keeps the
lines of a session whole is the lock on its stdin. -/
namespace SkyDaemon.Agent
open Protocol Program

inductive FineCall where
  | shared (call : Call)
  /-- One attempt to write; the answer is how many bytes were taken. -/
  | pollWrite (session : SessionId) (content : List UInt8)

@[reducible] def FineCall.Response : FineCall → Type
  | .shared operation => operation.Response
  | .pollWrite _ _ => Except String Nat

abbrev FineTask := Program FineCall FineCall.Response

abbrev FineHistory := List (Exchange FineCall FineCall.Response)

/-- The loop of `write_all`; every round takes at least one byte. -/
def writeLoop (session : SessionId) : Nat → List UInt8 → FineTask (Except String Unit)
  | _, [] => .done (.ok ())
  | 0, _ :: _ => .done (.error "out of rounds")
  | rounds + 1, byte :: rest => .call (.pollWrite session (byte :: rest)) fun
      | .error message => .done (.error message)
      | .ok 0 => .done (.error "write zero")
      | .ok (taken + 1) => writeLoop session rounds (rest.drop taken)

def writeAll (session : SessionId) (content : List UInt8) : FineTask (Except String Unit) :=
  writeLoop session content.length content

/-- Every other call is one step. -/
def carry : (call : Call) → FineTask call.Response
  | .writeStdin session content => writeAll session content
  | operation => .call (.shared operation) .done

def Dispatcher.fineHandle (dispatcher : Dispatcher) (codec : Base64) (cmd : CommandPayload) : FineTask AckPayload :=
  (dispatcher.handle codec cmd).translate carry

/-- What a console command writes. -/
def consoleLine (cmd : CommandPayload) : List UInt8 := Text.bytes (cmd.input.getD "") ++ Text.bytes "\n"

/-- How a command stands to the lock of a stdin, with what it has written under it. -/
inductive Hold where
  | waiting
  | holding (session : SessionId) (written : List UInt8)
  | released (session : SessionId) (written : List UInt8)
  deriving DecidableEq, Repr

namespace Hold

def after : Hold → Exchange FineCall FineCall.Response → Hold
  | _, ⟨.shared (.lockStdin session), _⟩ => .holding session []
  | .holding session written, ⟨.pollWrite _ content, .ok taken⟩ => .holding session (written ++ content.take taken)
  | .holding session written, ⟨.shared (.unlockStdin _), _⟩ => .released session written
  | hold, _ => hold

def session : Hold → Option SessionId
  | .waiting => none
  | .holding session _ | .released session _ => some session

def written : Hold → List UInt8
  | .waiting => []
  | .holding _ written | .released _ written => written

end Hold

def hold (history : FineHistory) : Hold := history.foldl Hold.after .waiting

@[simp] theorem hold_append (history : FineHistory) (exchange : Exchange FineCall FineCall.Response) :
    hold (history ++ [exchange]) = (hold history).after exchange := by
  simp [hold]

/-- An attempt that ends the loop with an error. -/
def failedWrite : Exchange FineCall FineCall.Response → Bool
  | ⟨.pollWrite _ _, .error _⟩ | ⟨.pollWrite _ _, .ok 0⟩ => true
  | _ => false

/-- A console command locks the session it found, writes its line there from the beginning on,
and lets go when the line is out or a write has failed. -/
def Writes (cmd : CommandPayload) (history : FineHistory) : FineCall → Prop
  | .shared (.consolesGet serverId) => serverId = cmd.serverId
  | .shared (.lockStdin session) => hold history = .waiting ∧
      (⟨.shared (.consolesGet cmd.serverId), some session⟩ : Exchange FineCall FineCall.Response) ∈ history
  | .pollWrite session content => ∃ written, hold history = .holding session written ∧
      written ++ content <+: consoleLine cmd ∧ content ≠ []
  | .shared (.unlockStdin session) => ∃ written, hold history = .holding session written ∧
      (written = consoleLine cmd ∨ history.any failedWrite = true)
  | _ => False

/-- An ack that says ok is given for the whole line. -/
def Written (cmd : CommandPayload) (history : FineHistory) (ack : AckPayload) : Prop :=
  ack.ok = true → ∃ session, hold history = .released session (consoleLine cmd)

section Handle
variable {cmd : CommandPayload} {history : FineHistory} {session : SessionId} {before : List UInt8}

/-- `write_all` writes the whole of its content or meets a write that fails. -/
theorem writeLoop_writes {content : List UInt8} (enough : content.length ≤ rounds)
    (holding : hold history = .holding session before) (part : before ++ content <+: consoleLine cmd) :
    (writeLoop session rounds content).Meets (Writes cmd) (fun later result =>
      (result = .ok () → hold later = .holding session (before ++ content)) ∧
      ∀ message, result = .error message →
        (∃ some', hold later = .holding session some') ∧ later.any failedWrite = true) history := by
  induction rounds generalizing content before history with
  | zero =>
    cases List.length_eq_zero_iff.mp (Nat.le_zero.mp enough)
    rw [List.append_nil]
    exact ⟨fun _ => holding, fun _ => nofun⟩
  | succ rounds ih =>
    cases content with
    | nil =>
      rw [List.append_nil]
      exact ⟨fun _ => holding, fun _ => nofun⟩
    | cons byte rest =>
      refine ⟨⟨before, holding, part, nofun⟩, fun answer => ?_⟩
      cases answer with
      | error message =>
        refine ⟨nofun, fun _ _ => ⟨⟨before, ?_⟩, ?_⟩⟩
        · rw [hold_append, holding]
          rfl
        · simp [failedWrite]
      | ok taken =>
        have kept : hold (history ++ [⟨.pollWrite session (byte :: rest), .ok taken⟩]) =
            .holding session (before ++ (byte :: rest).take taken) := by
          rw [hold_append, holding]
          rfl
        cases taken with
        | zero =>
          refine ⟨nofun, fun _ _ => ⟨⟨_, kept⟩, ?_⟩⟩
          simp [failedWrite]
        | succ taken =>
          have whole : before ++ (byte :: rest).take (taken + 1) ++ rest.drop taken = before ++ byte :: rest := by
            simp
          have fewer : (rest.drop taken).length ≤ rounds := by
            rw [List.length_drop]
            simp only [List.length_cons] at enough
            omega
          have following := ih fewer kept (by rw [whole]; exact part)
          rwa [whole] at following

theorem Dispatcher.fineHandle_writes (dispatcher : Dispatcher) (codec : Base64) (cmd : CommandPayload)
    (action : cmd.action = .consoleInput) :
    (dispatcher.fineHandle codec cmd).Meets (Writes cmd) (Written cmd) [] := by
  unfold fineHandle handle handleInner
  rw [action]
  unfold consoleInput
  cases given : cmd.input with
  | none => exact nofun
  | some input =>
    have line : consoleLine cmd = Text.bytes input ++ Text.bytes "\n" := by rw [consoleLine, given]; rfl
    refine ⟨rfl, fun found => ?_⟩
    cases found with
    | none => exact nofun
    | some session =>
      refine ⟨⟨rfl, List.mem_singleton_self _⟩, fun locked => ?_⟩
      have text : [] ++ Text.bytes input <+: consoleLine cmd := by
        rw [line]
        exact List.prefix_append _ _
      apply (writeLoop_writes (Nat.le_refl _) rfl text).bind
      rintro later (message | ⟨⟩) ⟨written, failed⟩
      · obtain ⟨⟨part, holding⟩, broken⟩ := failed message rfl
        exact ⟨⟨part, holding, .inr broken⟩, fun _ => nofun⟩
      · have rest : [] ++ Text.bytes input ++ Text.bytes "\n" <+: consoleLine cmd := by
          rw [line]
          exact List.prefix_rfl
        apply (writeLoop_writes (Nat.le_refl _) (written rfl) rest).bind
        rintro last (message | ⟨⟩) ⟨written, failed⟩
        · obtain ⟨⟨part, holding⟩, broken⟩ := failed message rfl
          exact ⟨⟨part, holding, .inr broken⟩, fun _ => nofun⟩
        · have whole : hold last = .holding session (consoleLine cmd) := by
            rw [line]
            exact written rfl
          refine ⟨⟨_, whole, .inl rfl⟩, fun unlocked _ => ⟨session, ?_⟩⟩
          rw [hold_append, whole]
          rfl

end Handle

end SkyDaemon.Agent
