import SkyDaemon.Agent.StdinLock

/-! The order of console input. Every command has a task of its own, and the tasks take the lock of
the session in whatever order they get to it; only if each waits for those before it do the lines
come in the order in which they were received. -/
namespace SkyDaemon.Agent
open Protocol Program Transition

/-- The task has nothing left to do. -/
def ConsoleThread.ended (thread : ConsoleThread) : Bool :=
  match thread.rest with
  | .call _ _ => false
  | _ => true

/-- The task has taken a lock or never will. -/
def ConsoleThread.passed (thread : ConsoleThread) : Bool :=
  hold thread.history != .waiting || ConsoleThread.ended thread

/-- A lock that was taken is not forgotten. -/
theorem Hold.after_ne_waiting {held : Hold} (taken : held ≠ .waiting)
    (exchange : Exchange FineCall FineCall.Response) : held.after exchange ≠ .waiting := by
  unfold Hold.after
  split <;> simp_all

namespace ConsolePool

/-- A task takes the lock only after all that were received before it. -/
def inTurn (pool : ConsolePool) : ConsoleEvent → Bool
  | .advance index _ =>
      match (pool.threads[index]?).map Thread.rest with
      | some (.call (.shared (.lockStdin _)) _) => (pool.threads.take index).all ConsoleThread.passed
      | _ => true
  | .receive _ => true

variable {k : SessionId} {server : String} {pool after : ConsolePool} {base : List UInt8}

/-- The task is one of the server's and knows of no other session. -/
structure OnSession (server : String) (k : SessionId) (thread : ConsoleThread) : Prop where
  ofServer : thread.origin.serverId = server
  found : ∀ session, (⟨.shared (.consolesGet server), some session⟩ : Exchange FineCall FineCall.Response) ∈
    thread.history → session = k
  session : ∀ session, (hold thread.history).session = some session → session = k

/-- The tasks stand in the order in which they were received, and none that comes before another in
it is still to take the lock. -/
structure Turns (server : String) (k : SessionId) (pool : ConsolePool) : Prop where
  active : pool.world.consoles.lookup server = some k
  threads : ∀ (i : Nat) (thread : ConsoleThread), pool.threads[i]? = some thread → OnSession server k thread
  waited : ∀ j ∈ lockOrder k pool.log, ∀ i < j, ∀ thread : ConsoleThread, pool.threads[i]? = some thread →
    ConsoleThread.passed thread = true
  sorted : (lockOrder k pool.log).Pairwise (· < ·)

section Resume
variable {index : Nat} {choice : FineChoice} {thread : ConsoleThread} {c : FineCall}
  {next : c.Response → FineTask AckPayload}

theorem OnSession.resume (onSession : OnSession server k thread) (keeps : ConsoleThread.Keeps thread)
    (active : pool.world.consoles.lookup server = some k) (waiting : thread.rest = .call c next) :
    OnSession server k
      (thread.resume c (pool.world.fineReact choice c).1 (next (pool.world.fineReact choice c).1)) := by
  have writes := keeps.obeys.next waiting
  have later :
      hold (thread.resume c (pool.world.fineReact choice c).1 (next (pool.world.fineReact choice c).1)).history =
        (hold thread.history).after ⟨c, (pool.world.fineReact choice c).1⟩ := hold_append _ _
  refine ⟨onSession.ofServer, fun session member => ?_, fun session taken => ?_⟩
  · rcases List.mem_append.mp member with before | now
    · exact onSession.found session before
    · obtain ⟨rfl, answered⟩ := Sigma.mk.inj (List.mem_singleton.mp now)
      exact Option.some.inj ((eq_of_heq answered).trans active)
  · rw [later] at taken
    rcases writes.kinds with ⟨serverId, rfl⟩ | ⟨locked, rfl⟩ | ⟨held, content, rfl⟩ | ⟨held, rfl⟩
    · apply onSession.session session
      cases standing : hold thread.history <;> rw [standing] at taken <;> exact taken
    · obtain ⟨fresh, known⟩ := writes
      rw [fresh] at taken
      rw [onSession.ofServer] at known
      exact Option.some.inj taken ▸ onSession.found locked known
    · obtain ⟨written, holding, -⟩ := writes
      apply onSession.session session
      rw [holding] at taken ⊢
      cases answer : (pool.world.fineReact choice (.pollWrite held content)).1 <;> rw [answer] at taken <;> exact taken
    · obtain ⟨written, holding, -⟩ := writes
      apply onSession.session session
      rw [holding] at taken ⊢
      exact taken

/-- No call of a console command changes which session is active. -/
theorem resume_consoles (writes : Writes cmd history c) :
    (pool.world.fineReact choice c).2.consoles = pool.world.consoles := by
  rcases writes.kinds with ⟨serverId, rfl⟩ | ⟨locked, rfl⟩ | ⟨held, content, rfl⟩ | ⟨held, rfl⟩
  · rfl
  · rfl
  · rw [World.fineReact]
    split <;> rfl
  · rfl

/-- A task that goes on stays among those that were waited for. -/
theorem passed_resume (waiting : thread.rest = .call c next) (passed : ConsoleThread.passed thread = true)
    (answer : c.Response) :
    ConsoleThread.passed (thread.resume c answer (next answer)) = true := by
  have taken : hold thread.history ≠ .waiting := by
    simpa [ConsoleThread.passed, ConsoleThread.ended, waiting] using passed
  have later := Hold.after_ne_waiting taken ⟨c, answer⟩
  rw [← hold_append] at later
  rw [ConsoleThread.passed, Bool.or_eq_true, bne_iff_ne]
  exact .inl later

theorem Turns.resume (turns : Turns server k pool) (ordered : Ordered k base pool)
    (found : pool.threads[index]? = some thread) (waiting : thread.rest = .call c next)
    (inOrder : inTurn pool (.advance index choice) = true) :
    Turns server k (pool.resume World.fineReact index choice thread c next) := by
  have keeps := ordered.keeps index thread found
  have writes := keeps.obeys.next waiting
  have waited (j : Nat) (before : ∀ i < j, ∀ other : ConsoleThread, pool.threads[i]? = some other →
      ConsoleThread.passed other = true) : ∀ i < j, ∀ other : ConsoleThread,
      (pool.resume World.fineReact index choice thread c next).threads[i]? = some other →
      ConsoleThread.passed other = true := by
    intro i less other there
    rcases Pool.resume_threads there with ⟨-, old⟩ | ⟨rfl, rfl⟩
    · exact before i less other old
    · exact passed_resume waiting (before i less thread found) _
  constructor
  · change (pool.world.fineReact choice c).2.consoles.lookup server = some k
    rw [resume_consoles writes]
    exact turns.active
  · intro i other there
    rcases Pool.resume_threads there with ⟨-, old⟩ | ⟨-, rfl⟩
    · exact turns.threads i other old
    · exact (turns.threads index thread found).resume keeps turns.active waiting
  · intro j member
    by_cases locks : c = .shared (.lockStdin k)
    · subst locks
      rw [lockOrder_locked, List.mem_append, List.mem_singleton] at member
      rcases member with old | rfl
      · exact waited j (turns.waited j old)
      · apply waited j
        intro i less other there
        simp only [inTurn, found, Option.map_some, waiting, List.all_eq_true] at inOrder
        apply inOrder other
        apply List.mem_of_getElem? (i := i)
        rw [List.getElem?_take_of_lt less, there]
    · rw [lockOrder_kept locks] at member
      exact waited j (turns.waited j member)
  · by_cases locks : c = .shared (.lockStdin k)
    · subst locks
      rw [lockOrder_locked, List.pairwise_append]
      refine ⟨turns.sorted, List.pairwise_singleton _ _, fun j member last isLast => ?_⟩
      rw [List.mem_singleton.mp isLast]
      -- A later one in front would have waited for this one, which is only now taking the lock.
      obtain ⟨fresh, -⟩ := writes
      by_contra notLess
      rcases Nat.lt_or_eq_of_le (Nat.le_of_not_lt notLess) with less | rfl
      · have passed := turns.waited j member index less thread found
        simp [ConsoleThread.passed, ConsoleThread.ended, fresh, waiting] at passed
      · have took := (took_iff found).mp ((ordered.took index).mp member)
        rw [fresh] at took
        cases took
    · rw [lockOrder_kept locks]
      exact turns.sorted

end Resume

section Run
variable {dispatcher : Dispatcher} {codec : Base64} {event : ConsoleEvent}

theorem Turns.spawn {cmd : CommandPayload} (turns : Turns server k pool) (ordered : Ordered k base pool)
    (own : cmd.serverId = server) : Turns server k (pool.spawn (dispatcher.fineHandle codec) cmd) := by
  refine ⟨turns.active, fun i thread found => ?_, fun j member i less thread found => ?_, turns.sorted⟩
  · rcases Pool.spawn_threads found with old | rfl
    · exact turns.threads i thread old
    · exact ⟨own, fun _ member => absurd member List.not_mem_nil, fun _ => nofun⟩
  · -- Who has the lock was there before, and so was everyone before it.
    obtain ⟨holder, there, -⟩ := (ordered.took j).mp member
    have inside := less.trans (List.getElem?_eq_some_iff.mp there).1
    rw [Pool.spawn, List.getElem?_append_left inside] at found
    exact turns.waited j member i less thread found

theorem Turns.step (turns : Turns server k pool) (ordered : Ordered k base pool)
    (stepped : Steps dispatcher codec (fun cmd => cmd.serverId = server) pool event after)
    (inOrder : inTurn pool event = true) : Turns server k after := by
  obtain ⟨⟨moved, allowed⟩, -⟩ := stepped
  cases event with
  | receive cmd =>
    cases moved
    exact turns.spawn ordered (allowed cmd rfl).2
  | advance index choice =>
    obtain ⟨thread, c, next, found, waiting, rfl⟩ := Pool.step_advance moved
    exact turns.resume ordered found waiting inOrder

/-- What an ack that says ok stands for. -/
theorem Turns.acked (turns : Turns server k pool) (ordered : Ordered k base pool) {i : Nat} {thread : ConsoleThread}
    {ack : AckPayload} (found : pool.threads[i]? = some thread) (done : thread.rest = .done ack) (ok : ack.ok = true) :
    i ∈ lockOrder k pool.log ∧ writtenBy pool i = consoleLine thread.origin := by
  obtain ⟨session, released⟩ := (ordered.keeps i thread found).obeys.ended done ok
  have onSession := (turns.threads i thread found).session session (by rw [released]; rfl)
  subst onSession
  constructor
  · rw [ordered.took, took_iff found, released]
    rfl
  · rw [writtenBy_eq found, released]
    rfl

/-- If every task takes the lock after all that were received before it, the line of a command that
was acked ok stands in front of the line of every such command that was received later. -/
theorem console_input_in_order {world : World} {s₀ : AttachSession} {events : List ConsoleEvent} {i j : Nat}
    {first second : ConsoleThread} {ack ack' : AckPayload}
    (active : world.consoles.lookup server = some k) (session : world.sessions[k]? = some s₀)
    (unlocked : s₀.locked = false)
    (run : Run (Guarded (Steps dispatcher codec fun cmd => cmd.serverId = server)
      fun pool event => inTurn pool event = true) (Pool.start world) events pool)
    (earlier : i < j) (foundFirst : pool.threads[i]? = some first) (foundSecond : pool.threads[j]? = some second)
    (doneFirst : first.rest = .done ack) (doneSecond : second.rest = .done ack')
    (okFirst : ack.ok = true) (okSecond : ack'.ok = true) :
    ∃ s before between behind, pool.world.sessions[k]? = some s ∧
      lockOrder k pool.log = before ++ i :: (between ++ j :: behind) ∧
      s.stdin = s₀.stdin ++ before.flatMap (writtenBy pool) ++ consoleLine first.origin ++
        between.flatMap (writtenBy pool) ++ consoleLine second.origin ++ behind.flatMap (writtenBy pool) := by
  have both : Ordered k s₀.stdin pool ∧ Turns server k pool := by
    apply run.invariant (P := fun pool => Ordered k s₀.stdin pool ∧ Turns server k pool)
    · rintro pool event after ⟨ordered, turns⟩ ⟨stepped, inOrder⟩
      exact ⟨ordered.step stepped, turns.step ordered stepped inOrder⟩
    · refine ⟨.start session unlocked, active, fun i thread found => ?_, nofun, List.Pairwise.nil⟩
      simp [Pool.start] at found
  obtain ⟨ordered, turns⟩ := both
  obtain ⟨memberFirst, lineFirst⟩ := turns.acked ordered foundFirst doneFirst okFirst
  obtain ⟨memberSecond, lineSecond⟩ := turns.acked ordered foundSecond doneSecond okSecond
  obtain ⟨before, rest, order⟩ := List.append_of_mem memberFirst
  have later : j ∈ rest := by
    have sorted := turns.sorted
    rw [order] at memberSecond sorted
    rcases List.mem_append.mp memberSecond with inFront | here
    · have less := (List.pairwise_append.mp sorted).2.2 j inFront i List.mem_cons_self
      omega
    · rcases List.mem_cons.mp here with same | inRest
      · omega
      · exact inRest
  obtain ⟨between, behind, rfl⟩ := List.append_of_mem later
  obtain ⟨s, there, stdin, -⟩ := ordered.session
  refine ⟨s, before, between, behind, there, order, ?_⟩
  rw [stdin, order]
  simp only [List.flatMap_append, List.flatMap_cons, lineFirst, lineSecond, List.append_assoc]

end Run

/-- The command was acked ok. -/
def acked (pool : ConsolePool) (i : Nat) : Bool :=
  match (pool.threads[i]?).map Thread.rest with
  | some (.done ack) => ack.ok
  | _ => false

theorem acked_iff {i : Nat} : acked pool i = true ↔ ∃ thread ack, pool.threads[i]? = some thread ∧
    thread.rest = .done ack ∧ ack.ok = true := by
  unfold acked
  constructor
  · intro ok
    split at ok
    · rename_i ack done
      obtain ⟨thread, found, rest⟩ := Option.map_eq_some_iff.mp done
      exact ⟨thread, ack, found, rest, ok⟩
    · contradiction
  · rintro ⟨thread, ack, found, done, ok⟩
    rw [found, Option.map_some, done]
    exact ok

/-- The second task has to wait for the lock, the first writes in pieces. -/
def firstFirst : List ConsoleEvent :=
  [typed "ab", typed "c", goes 0 0, goes 0 0, goes 1 0, goes 0 1, goes 0 5, goes 0 1, goes 0 0, goes 1 0, goes 1 1,
    goes 1 1, goes 1 0]

theorem input_in_order_sample : ∃ (pool : ConsolePool) (s : AttachSession) (before between behind : List Nat),
    pool.world.sessions[0]? = some s ∧ lockOrder 0 pool.log = before ++ 0 :: (between ++ 1 :: behind) ∧
    s.stdin = Text.bytes "ab\nc\n" := by
  have facts : (exec inTurn firstFirst).any (fun pool => acked pool 0 && acked pool 1 &&
      pool.world.sessions == [⟨"c1", true, false, Text.bytes "ab\nc\n"⟩]) = true := by
    decide +kernel
  obtain ⟨pool, ran, shown⟩ := (Option.any_eq_true _ _).mp facts
  simp only [Bool.and_eq_true, beq_iff_eq, acked_iff] at shown
  obtain ⟨⟨⟨first, ack, foundFirst, doneFirst, okFirst⟩, second, ack', foundSecond, doneSecond, okSecond⟩, stdin⟩ :=
    shown
  have active : consoleWorld.consoles.lookup "s1" = some 0 := rfl
  have session : consoleWorld.sessions[0]? = some ⟨"c1", true, false, []⟩ := rfl
  obtain ⟨s, before, between, behind, there, order, -⟩ := console_input_in_order active session rfl (exec_run ran)
    Nat.zero_lt_one foundFirst foundSecond doneFirst doneSecond okFirst okSecond
  have same := there
  rw [stdin] at same
  cases same
  exact ⟨pool, _, before, between, behind, there, order, rfl⟩

/-- The task of the second command gets to the lock first. -/
def secondOvertakes : List ConsoleEvent :=
  [typed "a", typed "b", goes 1 0, goes 1 0, goes 1 1, goes 1 1, goes 1 0, goes 0 0, goes 0 0, goes 0 1, goes 0 1,
    goes 0 0]

/-- Both are acked ok, and the later line comes first. -/
theorem later_input_written_first : ∃ pool : ConsolePool,
    Run (Steps Dispatcher.defaultDispatcher Dispatcher.unusedCodec fun cmd => cmd.serverId = "s1")
      (Pool.start consoleWorld) secondOvertakes pool ∧
    acked pool 0 = true ∧ acked pool 1 = true ∧
    pool.world.sessions = [⟨"c1", true, false, Text.bytes "b\na\n"⟩] := by
  have facts : (exec (fun _ _ => true) secondOvertakes).any (fun pool => acked pool 0 && acked pool 1 &&
      pool.world.sessions == [⟨"c1", true, false, Text.bytes "b\na\n"⟩]) = true := by
    decide +kernel
  obtain ⟨pool, ran, shown⟩ := (Option.any_eq_true _ _).mp facts
  simp only [Bool.and_eq_true, beq_iff_eq] at shown
  exact ⟨pool, (exec_run ran).mono fun guarded => guarded.1, shown.1.1, shown.1.2, shown.2⟩

end ConsolePool
end SkyDaemon.Agent
