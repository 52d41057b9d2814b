import SkyDaemon.Foundation.Pool
import SkyDaemon.Agent.Alone
import SkyDaemon.Agent.ConsoleWrites

/-! The lock on the stdin of a session. The tasks that have taken it stand in an order, only the
last of them can hold it, and what was written to the session is what each has written, in that
order. -/
namespace SkyDaemon.Agent
open Protocol Program Transition

/-- What the surroundings decide in a step, with the outcome of an attempt to write. -/
structure FineChoice extends Choice where
  poll : Except String Nat

def AttachSession.write (s : AttachSession) (content : List UInt8) : AttachSession :=
  { s with stdin := s.stdin ++ content }

/-- An attempt takes no more than there is; one that fails takes nothing. -/
def World.fineReact (world : World) (choice : FineChoice) : (c : FineCall) → c.Response × World
  | .shared operation => world.react choice.toChoice operation
  | .pollWrite session content =>
      match choice.poll with
      | .error message => (.error message, world)
      | .ok wanted =>
          (.ok (content.take wanted).length,
            { world with sessions := world.sessions.modify session (·.write (content.take wanted)) })

abbrev ConsoleLog := List (Logged World CommandPayload FineCall FineCall.Response)

abbrev ConsolePool := Pool World CommandPayload FineCall FineCall.Response AckPayload

abbrev ConsoleEvent := Pool.Event CommandPayload FineChoice

abbrev ConsoleThread := Thread CommandPayload FineCall FineCall.Response AckPayload

/-- The tasks that have taken the lock of the session, in order. -/
def lockOrder (k : SessionId) (log : ConsoleLog) : List Nat :=
  log.filterMap fun entry =>
    match entry.exchange with
    | ⟨.shared (.lockStdin session), _⟩ => if session = k then some entry.thread else none
    | _ => none

namespace ConsolePool

/-- The task that goes on does not have to wait for the lock. -/
def free (pool : ConsolePool) : ConsoleEvent → Bool
  | .advance index _ =>
      match (pool.threads[index]?).map Thread.rest with
      | some (.call (.shared operation) _) => !pool.world.blocked operation
      | _ => true
  | .receive _ => true

/-- Console commands side by side. -/
def Steps (dispatcher : Dispatcher) (codec : Base64) (admitted : CommandPayload → Prop) :
    ConsolePool → ConsoleEvent → ConsolePool → Prop :=
  Guarded (Pool.Steps World.fineReact (dispatcher.fineHandle codec)
      fun cmd => cmd.action = .consoleInput ∧ admitted cmd)
    fun pool event => free pool event = true

/-- What the task has written so far. -/
def writtenBy (pool : ConsolePool) (i : Nat) : List UInt8 :=
  ((pool.threads[i]?).map fun thread => (hold thread.history).written).getD []

end ConsolePool

/-- The task keeps to its line. -/
structure ConsoleThread.Keeps (thread : ConsoleThread) : Prop where
  obeys : thread.Obeys Writes Written
  part : ∀ session written, hold thread.history = .holding session written → written <+: consoleLine thread.origin
  whole : ∀ session written, hold thread.history = .released session written →
    written = consoleLine thread.origin ∨ thread.history.any failedWrite = true

/-- The calls of a console command. -/
theorem Writes.kinds {c : FineCall} (writes : Writes cmd history c) :
    (∃ serverId, c = .shared (.consolesGet serverId)) ∨ (∃ session, c = .shared (.lockStdin session)) ∨
      (∃ session content, c = .pollWrite session content) ∨ ∃ session, c = .shared (.unlockStdin session) := by
  cases c with
  | pollWrite session content => exact .inr (.inr (.inl ⟨session, content, rfl⟩))
  | shared operation =>
    cases operation with
    | consolesGet serverId => exact .inl ⟨serverId, rfl⟩
    | lockStdin session => exact .inr (.inl ⟨session, rfl⟩)
    | unlockStdin session => exact .inr (.inr (.inr ⟨session, rfl⟩))
    | _ => exact writes.elim

theorem ConsoleThread.Keeps.resume {thread : ConsoleThread} {c : FineCall} {next : c.Response → FineTask AckPayload}
    (keeps : ConsoleThread.Keeps thread) (waiting : thread.rest = .call c next) (answer : c.Response) :
    ConsoleThread.Keeps (thread.resume c answer (next answer)) := by
  have writes := keeps.obeys.next waiting
  have obeys := keeps.obeys.resume waiting answer
  have grows (failed : thread.history.any failedWrite = true) :
      (thread.resume c answer (next answer)).history.any failedWrite = true := by
    change (thread.history ++ _).any failedWrite = true
    rw [List.any_append, failed, Bool.true_or]
  have later : hold (thread.resume c answer (next answer)).history = (hold thread.history).after ⟨c, answer⟩ :=
    hold_append _ _
  rcases writes.kinds with ⟨serverId, rfl⟩ | ⟨session, rfl⟩ | ⟨session, content, rfl⟩ | ⟨session, rfl⟩
  · have same : hold (thread.resume _ answer (next answer)).history = hold thread.history := by
      rw [later]
      cases hold thread.history <;> rfl
    refine ⟨obeys, fun s w held => keeps.part s w (same.symm.trans held), fun s w released => ?_⟩
    exact (keeps.whole s w (same.symm.trans released)).imp_right grows
  · have locked : hold (thread.resume _ answer (next answer)).history = .holding session [] := by
      rw [later]
      cases hold thread.history <;> rfl
    refine ⟨obeys, fun s w held => ?_, fun s w released => ?_⟩
    · cases locked.symm.trans held
      exact List.nil_prefix
    · cases locked.symm.trans released
  · obtain ⟨written, holding, within, -⟩ := writes
    rw [holding] at later
    cases answer with
    | error message =>
      refine ⟨obeys, fun s w held => ?_, fun s w released => ?_⟩
      · cases later.symm.trans held
        exact keeps.part session written holding
      · cases later.symm.trans released
    | ok taken =>
      refine ⟨obeys, fun s w held => ?_, fun s w released => ?_⟩
      · cases later.symm.trans held
        apply List.IsPrefix.trans _ within
        exact (List.prefix_append_right_inj _).mpr (List.take_prefix _ _)
      · cases later.symm.trans released
  · obtain ⟨written, holding, reason⟩ := writes
    rw [holding] at later
    refine ⟨obeys, fun s w held => ?_, fun s w released => ?_⟩
    · cases later.symm.trans held
    · cases later.symm.trans released
      exact reason.imp_right grows

namespace ConsolePool
variable {k : SessionId} {base : List UInt8} {pool : ConsolePool} {i : Nat}

/-- The task holds the lock of the session. -/
def Holds (pool : ConsolePool) (k : SessionId) (i : Nat) : Prop :=
  ∃ (thread : ConsoleThread) (written : List UInt8), pool.threads[i]? = some thread ∧
    hold thread.history = .holding k written

/-- The task has taken the lock of the session, and may have let go since. -/
def Took (pool : ConsolePool) (k : SessionId) (i : Nat) : Prop :=
  ∃ thread : ConsoleThread, pool.threads[i]? = some thread ∧ (hold thread.history).session = some k

/-- What was written to the session is what its tasks have written, one after the other; the last
to take the lock is the only one that can hold it. -/
structure Ordered (k : SessionId) (base : List UInt8) (pool : ConsolePool) : Prop where
  keeps : ∀ (i : Nat) (thread : ConsoleThread), pool.threads[i]? = some thread → ConsoleThread.Keeps thread
  nodup : (lockOrder k pool.log).Nodup
  took : ∀ i, i ∈ lockOrder k pool.log ↔ Took pool k i
  holder : ∀ i, Holds pool k i → (lockOrder k pool.log).getLast? = some i
  session : ∃ s, pool.world.sessions[k]? = some s ∧
    s.stdin = base ++ (lockOrder k pool.log).flatMap (writtenBy pool) ∧ (s.locked = true ↔ ∃ i, Holds pool k i)

theorem Holds.took (holds : Holds pool k i) : Took pool k i := by
  obtain ⟨thread, written, found, holding⟩ := holds
  exact ⟨thread, found, by rw [holding]; rfl⟩

section Spawn
variable {dispatcher : Dispatcher} {codec : Base64} {cmd : CommandPayload}

theorem spawn_keeps_thread {thread : ConsoleThread} (found : pool.threads[i]? = some thread) :
    (pool.spawn (dispatcher.fineHandle codec) cmd).threads[i]? = some thread := by
  rw [Pool.spawn, List.getElem?_append_left (List.getElem?_eq_some_iff.mp found).1, found]

/-- A task that has just been started has taken no lock and written nothing. -/
theorem spawn_took : Took (pool.spawn (dispatcher.fineHandle codec) cmd) k i ↔ Took pool k i := by
  constructor
  · rintro ⟨thread, found, taken⟩
    rcases Pool.spawn_threads found with old | rfl
    · exact ⟨thread, old, taken⟩
    · cases taken
  · rintro ⟨thread, found, taken⟩
    exact ⟨thread, spawn_keeps_thread found, taken⟩

theorem spawn_holds : Holds (pool.spawn (dispatcher.fineHandle codec) cmd) k i ↔ Holds pool k i := by
  constructor
  · rintro ⟨thread, written, found, holding⟩
    rcases Pool.spawn_threads found with old | rfl
    · exact ⟨thread, written, old, holding⟩
    · cases holding
  · rintro ⟨thread, written, found, holding⟩
    exact ⟨thread, written, spawn_keeps_thread found, holding⟩

theorem spawn_writtenBy : writtenBy (pool.spawn (dispatcher.fineHandle codec) cmd) = writtenBy pool := by
  funext i
  cases found : pool.threads[i]? with
  | some thread => rw [writtenBy, spawn_keeps_thread found, writtenBy, found]
  | none =>
    rw [writtenBy, writtenBy, found]
    cases new : (pool.spawn (dispatcher.fineHandle codec) cmd).threads[i]? with
    | none => rfl
    | some thread =>
      rcases Pool.spawn_threads new with old | rfl
      · cases found.symm.trans old
      · rfl

theorem Ordered.spawn (ordered : Ordered k base pool) (action : cmd.action = .consoleInput) :
    Ordered k base (pool.spawn (dispatcher.fineHandle codec) cmd) := by
  constructor
  · intro i thread found
    rcases Pool.spawn_threads found with old | rfl
    · exact ordered.keeps i thread old
    · exact ⟨dispatcher.fineHandle_writes codec cmd action, fun _ _ => nofun, fun _ _ => nofun⟩
  · exact ordered.nodup
  · intro i
    rw [spawn_took]
    exact ordered.took i
  · intro i holds
    exact ordered.holder i (spawn_holds.mp holds)
  · obtain ⟨s, found, stdin, locked⟩ := ordered.session
    refine ⟨s, found, ?_, ?_⟩
    · rw [spawn_writtenBy]
      exact stdin
    · simp only [spawn_holds]
      exact locked

end Spawn

section Resume
variable {index : Nat} {choice : FineChoice} {thread : ConsoleThread} {c : FineCall}
  {next : c.Response → FineTask AckPayload}

/-- How the task stands to the lock after the call. -/
def heldAfter (pool : ConsolePool) (choice : FineChoice) (thread : ConsoleThread) (c : FineCall) : Hold :=
  (hold thread.history).after ⟨c, (pool.world.fineReact choice c).1⟩

theorem resume_here (found : pool.threads[index]? = some thread) :
    (pool.resume World.fineReact index choice thread c next).threads[index]? =
      some (thread.resume c (pool.world.fineReact choice c).1 (next (pool.world.fineReact choice c).1)) :=
  List.getElem?_set_self (List.getElem?_eq_some_iff.mp found).1

theorem resume_away (other : i ≠ index) :
    (pool.resume World.fineReact index choice thread c next).threads[i]? = pool.threads[i]? :=
  List.getElem?_set_ne (Ne.symm other)

theorem resume_took (found : pool.threads[index]? = some thread) :
    Took (pool.resume World.fineReact index choice thread c next) k i ↔
      if i = index then (heldAfter pool choice thread c).session = some k else Took pool k i := by
  split
  · rename_i same
    subst same
    simp only [Took, resume_here found, Option.some.injEq, exists_eq_left', Thread.resume, hold_append]
    rfl
  · rename_i other
    rw [Took, resume_away other]
    rfl

theorem resume_holds (found : pool.threads[index]? = some thread) :
    Holds (pool.resume World.fineReact index choice thread c next) k i ↔
      if i = index then ∃ written, heldAfter pool choice thread c = .holding k written else Holds pool k i := by
  split
  · rename_i same
    subst same
    simp only [Holds, resume_here found, Option.some.injEq, exists_and_left, exists_eq_left', Thread.resume,
      hold_append]
    rfl
  · rename_i other
    simp only [Holds, resume_away other]

theorem resume_writtenBy (found : pool.threads[index]? = some thread) (i : Nat) :
    writtenBy (pool.resume World.fineReact index choice thread c next) i =
      if i = index then (heldAfter pool choice thread c).written else writtenBy pool i := by
  split
  · rename_i same
    subst same
    rw [writtenBy, resume_here found, Option.map_some, Option.getD_some, Thread.resume, hold_append]
    rfl
  · rename_i other
    rw [writtenBy, resume_away other]
    rfl

theorem took_iff (found : pool.threads[index]? = some thread) :
    Took pool k index ↔ (hold thread.history).session = some k := by
  simp only [Took, found, Option.some.injEq, exists_eq_left']

theorem holds_iff (found : pool.threads[index]? = some thread) :
    Holds pool k index ↔ ∃ written, hold thread.history = .holding k written := by
  simp only [Holds, found, Option.some.injEq, exists_and_left, exists_eq_left']

theorem writtenBy_eq (found : pool.threads[index]? = some thread) :
    writtenBy pool index = (hold thread.history).written := by
  rw [writtenBy, found]
  rfl

theorem Ordered.resume_keeps (ordered : Ordered k base pool) (found : pool.threads[index]? = some thread)
    (waiting : thread.rest = .call c next) (i : Nat) (other : ConsoleThread)
    (there : (pool.resume World.fineReact index choice thread c next).threads[i]? = some other) :
    ConsoleThread.Keeps other := by
  rcases Pool.resume_threads there with ⟨-, old⟩ | ⟨-, rfl⟩
  · exact ordered.keeps i other old
  · exact (ordered.keeps index thread found).resume waiting _

theorem lockOrder_append (log : ConsoleLog) (entry : Logged World CommandPayload FineCall FineCall.Response) :
    lockOrder k (log ++ [entry]) = lockOrder k log ++ lockOrder k [entry] :=
  List.filterMap_append

/-- Only a task that takes the lock is added to the order. -/
theorem lockOrder_kept (other : c ≠ .shared (.lockStdin k)) :
    lockOrder k (pool.resume World.fineReact index choice thread c next).log = lockOrder k pool.log := by
  rw [Pool.resume, lockOrder_append, List.append_right_eq_self, lockOrder, List.filterMap_eq_nil_iff]
  intro entry member
  cases List.mem_singleton.mp member
  split
  · rename_i session _ same
    cases same
    apply if_neg
    rintro rfl
    exact other rfl
  · rfl

theorem lockOrder_locked {next : Unit → FineTask AckPayload} :
    lockOrder k (pool.resume World.fineReact index choice thread (.shared (.lockStdin k)) next).log =
      lockOrder k pool.log ++ [index] := by
  rw [Pool.resume, lockOrder_append]
  simp [lockOrder]

/-- A call that takes no lock keeps the order; what is left to show is what it does to the session. -/
theorem Ordered.same_order (ordered : Ordered k base pool) (found : pool.threads[index]? = some thread)
    (waiting : thread.rest = .call c next) (other : c ≠ .shared (.lockStdin k))
    (standing : (heldAfter pool choice thread c).session = some k ↔ (hold thread.history).session = some k)
    (holders : ∀ i, Holds (pool.resume World.fineReact index choice thread c next) k i → Holds pool k i)
    (session : ∃ s, (pool.world.fineReact choice c).2.sessions[k]? = some s ∧
      s.stdin = base ++ (lockOrder k pool.log).flatMap
        (writtenBy (pool.resume World.fineReact index choice thread c next)) ∧
      (s.locked = true ↔ ∃ i, Holds (pool.resume World.fineReact index choice thread c next) k i)) :
    Ordered k base (pool.resume World.fineReact index choice thread c next) := by
  have sameOrder := @lockOrder_kept k pool index choice thread c next other
  constructor
  · exact ordered.resume_keeps found waiting
  · rw [sameOrder]
    exact ordered.nodup
  · intro i
    rw [sameOrder, ordered.took, resume_took found]
    split
    · rename_i same
      subst same
      rw [took_iff found, standing]
    · rfl
  · intro i holds
    rw [sameOrder]
    exact ordered.holder i (holders i holds)
  · rw [sameOrder]
    exact session

/-- A call that leaves the session and the task's standing to its lock as they were. -/
theorem Ordered.undisturbed (ordered : Ordered k base pool) (found : pool.threads[index]? = some thread)
    (waiting : thread.rest = .call c next) (other : c ≠ .shared (.lockStdin k))
    (sameSession : (pool.world.fineReact choice c).2.sessions[k]? = pool.world.sessions[k]?)
    (sameHold : heldAfter pool choice thread c = hold thread.history ∨
      (hold thread.history).session ≠ some k ∧ (heldAfter pool choice thread c).session ≠ some k) :
    Ordered k base (pool.resume World.fineReact index choice thread c next) := by
  have standing : (heldAfter pool choice thread c).session = some k ↔ (hold thread.history).session = some k := by
    rcases sameHold with same | ⟨before, after⟩
    · rw [same]
    · exact iff_of_false after before
  have holds (i : Nat) : Holds (pool.resume World.fineReact index choice thread c next) k i ↔ Holds pool k i := by
    rw [resume_holds found]
    split
    · rename_i same
      subst same
      rw [holds_iff found]
      rcases sameHold with same | ⟨before, after⟩
      · rw [same]
      · constructor
        · rintro ⟨written, holding⟩
          exact absurd (by rw [holding]; rfl) after
        · rintro ⟨written, holding⟩
          exact absurd (by rw [holding]; rfl) before
    · rfl
  have written (i : Nat) (member : i ∈ lockOrder k pool.log) :
      writtenBy (pool.resume World.fineReact index choice thread c next) i = writtenBy pool i := by
    rw [resume_writtenBy found]
    split
    · rename_i same
      subst same
      rw [writtenBy_eq found]
      rcases sameHold with same | ⟨before, -⟩
      · rw [same]
      · exact absurd ((took_iff found).mp ((ordered.took i).mp member)) before
    · rfl
  obtain ⟨s, there, stdin, locked⟩ := ordered.session
  apply ordered.same_order found waiting other standing (fun i => (holds i).mp)
  refine ⟨s, sameSession.trans there, ?_, ?_⟩
  · rw [List.flatMap_congr written]
    exact stdin
  · simp only [holds]
    exact locked

/-- A task that takes the free lock is the last in order and has written nothing yet. -/
theorem Ordered.lock {next : Unit → FineTask AckPayload} (ordered : Ordered k base pool)
    (found : pool.threads[index]? = some thread)
    (waiting : thread.rest = .call (.shared (.lockStdin k)) next) (fresh : hold thread.history = .waiting)
    (unlocked : pool.world.blocked (.lockStdin k) = false) :
    Ordered k base (pool.resume World.fineReact index choice thread (.shared (.lockStdin k)) next) := by
  obtain ⟨s, there, stdin, locked⟩ := ordered.session
  have isFree : s.locked = false := by
    rw [World.blocked, there, Option.any_some] at unlocked
    exact unlocked
  have nobody (i : Nat) : ¬ Holds pool k i := fun holds => by
    rw [locked.mpr ⟨i, holds⟩] at isFree
    contradiction
  have order := @lockOrder_locked k pool index choice thread next
  have after : heldAfter pool choice thread (.shared (.lockStdin k)) = .holding k [] := by
    rw [heldAfter, fresh]
    rfl
  have absent : index ∉ lockOrder k pool.log := by
    rw [ordered.took, took_iff found, fresh]
    nofun
  constructor
  · exact ordered.resume_keeps found waiting
  · rw [order, List.nodup_append]
    refine ⟨ordered.nodup, List.nodup_singleton _, ?_⟩
    rintro i member _ last rfl
    exact absent (List.mem_singleton.mp last ▸ member)
  · intro i
    rw [order, List.mem_append, List.mem_singleton, resume_took found, ordered.took, after]
    split
    · rename_i same
      simp [same, Hold.session]
    · rename_i other
      simp [other]
  · intro i holds
    rw [resume_holds found] at holds
    rw [order, List.getLast?_concat]
    split at holds
    · rename_i same
      rw [same]
    · exact absurd holds (nobody i)
  · refine ⟨{ s with locked := true }, ?_, ?_, ?_⟩
    · change (pool.world.sessions.modify k _)[k]? = _
      rw [List.getElem?_modify_eq, there]
      rfl
    · have same (i : Nat) (member : i ∈ lockOrder k pool.log) :
          writtenBy (pool.resume World.fineReact index choice thread (.shared (.lockStdin k)) next) i =
            writtenBy pool i := by
        rw [resume_writtenBy found]
        apply if_neg
        rintro rfl
        exact absent member
      rw [order, List.flatMap_append, List.flatMap_congr same, List.flatMap_singleton, resume_writtenBy found,
        if_pos rfl, after]
      simpa [Hold.written] using stdin
    · refine ⟨fun _ => ⟨index, ?_⟩, fun _ => rfl⟩
      rw [resume_holds found, if_pos rfl]
      exact ⟨[], after⟩

/-- Whoever holds the lock comes last in order, and nowhere else. -/
theorem Ordered.last (ordered : Ordered k base pool) (holds : Holds pool k index) :
    ∃ earlier, lockOrder k pool.log = earlier ++ [index] ∧ index ∉ earlier := by
  obtain ⟨earlier, order⟩ := List.getLast?_eq_some_iff.mp (ordered.holder index holds)
  refine ⟨earlier, order, fun member => ?_⟩
  have nodup := ordered.nodup
  rw [order, List.nodup_append] at nodup
  exact nodup.2.2 index member index (List.mem_singleton_self _) rfl

/-- What the holder of the lock gets written is added to its own bytes, which come last. -/
theorem Ordered.write {content written : List UInt8} {wanted : Nat} {next : Except String Nat → FineTask AckPayload}
    (ordered : Ordered k base pool) (found : pool.threads[index]? = some thread)
    (waiting : thread.rest = .call (.pollWrite k content) next)
    (holding : hold thread.history = .holding k written) (taken : choice.poll = .ok wanted) :
    Ordered k base (pool.resume World.fineReact index choice thread (.pollWrite k content) next) := by
  have reacted : pool.world.fineReact choice (.pollWrite k content) = (.ok (content.take wanted).length,
      { pool.world with sessions := pool.world.sessions.modify k (·.write (content.take wanted)) }) := by
    rw [World.fineReact, taken]
  have after : heldAfter pool choice thread (.pollWrite k content) =
      .holding k (written ++ content.take wanted) := by
    rw [heldAfter, holding, reacted]
    simp only [Hold.after, List.length_take, ← List.take_eq_take_min]
  have own : Holds pool k index := (holds_iff found).mpr ⟨written, holding⟩
  obtain ⟨earlier, order, absent⟩ := ordered.last own
  have standing : (heldAfter pool choice thread (.pollWrite k content)).session = some k ↔
      (hold thread.history).session = some k := by
    rw [after, holding]
    rfl
  have holds (i : Nat) : Holds (pool.resume World.fineReact index choice thread (.pollWrite k content) next) k i ↔
      Holds pool k i := by
    rw [resume_holds found]
    split
    · rename_i same
      subst same
      simp [after, own]
    · rfl
  have same (i : Nat) (member : i ∈ earlier) :
      writtenBy (pool.resume World.fineReact index choice thread (.pollWrite k content) next) i =
        writtenBy pool i := by
    rw [resume_writtenBy found]
    apply if_neg
    rintro rfl
    exact absent member
  obtain ⟨s, there, stdin, locked⟩ := ordered.session
  apply ordered.same_order found waiting nofun standing (fun i => (holds i).mp)
  refine ⟨s.write (content.take wanted), ?_, ?_, ?_⟩
  · rw [reacted]
    change (pool.world.sessions.modify k _)[k]? = _
    rw [List.getElem?_modify_eq, there]
    rfl
  · rw [order, List.flatMap_append, List.flatMap_singleton, writtenBy_eq found, holding] at stdin
    rw [order, List.flatMap_append, List.flatMap_congr same, List.flatMap_singleton, resume_writtenBy found,
      if_pos rfl, after, AttachSession.write, stdin]
    simp only [Hold.written, List.append_assoc]
  · simp only [holds]
    exact locked

/-- After the holder has let go nobody holds the lock. -/
theorem Ordered.unlock {written : List UInt8} {next : Unit → FineTask AckPayload}
    (ordered : Ordered k base pool) (found : pool.threads[index]? = some thread)
    (waiting : thread.rest = .call (.shared (.unlockStdin k)) next)
    (holding : hold thread.history = .holding k written) :
    Ordered k base (pool.resume World.fineReact index choice thread (.shared (.unlockStdin k)) next) := by
  have after : heldAfter pool choice thread (.shared (.unlockStdin k)) = .released k written := by
    rw [heldAfter, holding]
    rfl
  have own : Holds pool k index := (holds_iff found).mpr ⟨written, holding⟩
  have standing : (heldAfter pool choice thread (.shared (.unlockStdin k))).session = some k ↔
      (hold thread.history).session = some k := by
    rw [after, holding]
    rfl
  have nobody (i : Nat) :
      ¬ Holds (pool.resume World.fineReact index choice thread (.shared (.unlockStdin k)) next) k i := by
    rw [resume_holds found]
    split
    · simp [after]
    · rename_i other
      intro holds
      have same := (ordered.holder i holds).symm.trans (ordered.holder index own)
      exact other (Option.some.inj same)
  have same (i : Nat) (_ : i ∈ lockOrder k pool.log) :
      writtenBy (pool.resume World.fineReact index choice thread (.shared (.unlockStdin k)) next) i =
        writtenBy pool i := by
    rw [resume_writtenBy found]
    split
    · rename_i same
      subst same
      rw [writtenBy_eq found, after, holding]
      rfl
    · rfl
  obtain ⟨s, there, stdin, locked⟩ := ordered.session
  apply ordered.same_order found waiting nofun standing (fun i holds => absurd holds (nobody i))
  refine ⟨{ s with locked := false }, ?_, ?_, ?_⟩
  · change (pool.world.sessions.modify k _)[k]? = _
    rw [List.getElem?_modify_eq, there]
    rfl
  · rw [List.flatMap_congr same]
    exact stdin
  · simp [nobody]

/-- One call of a console command. -/
theorem Ordered.resume (ordered : Ordered k base pool) (found : pool.threads[index]? = some thread)
    (waiting : thread.rest = .call c next) (unblocked : free pool (.advance index choice) = true) :
    Ordered k base (pool.resume World.fineReact index choice thread c next) := by
  have writes := (ordered.keeps index thread found).obeys.next waiting
  have elsewhere {session : SessionId} (other : session ≠ k) (f : AttachSession → AttachSession) :
      (pool.world.sessions.modify session f)[k]? = pool.world.sessions[k]? :=
    List.getElem?_modify_ne f _ other
  rcases writes.kinds with ⟨serverId, rfl⟩ | ⟨session, rfl⟩ | ⟨session, content, rfl⟩ | ⟨session, rfl⟩
  · apply ordered.undisturbed found waiting nofun rfl
    left
    rw [heldAfter]
    cases hold thread.history <;> rfl
  · obtain ⟨fresh, -⟩ := writes
    by_cases same : session = k
    · subst same
      apply ordered.lock found waiting fresh
      simpa [free, found, waiting] using unblocked
    · apply ordered.undisturbed found waiting (by simpa using same) (elsewhere same _)
      right
      rw [heldAfter, fresh]
      simp [Hold.after, Hold.session, same]
  · obtain ⟨written, holding, -⟩ := writes
    cases taken : choice.poll with
    | error message =>
      apply ordered.undisturbed found waiting nofun
      · rw [World.fineReact, taken]
      · left
        rw [heldAfter, holding, World.fineReact, taken]
        rfl
    | ok wanted =>
      by_cases same : session = k
      · subst same
        exact ordered.write found waiting holding taken
      · apply ordered.undisturbed found waiting nofun
        · rw [World.fineReact, taken]
          exact elsewhere same _
        · right
          rw [heldAfter, holding, World.fineReact, taken]
          simp [Hold.after, Hold.session, same]
  · obtain ⟨written, holding, -⟩ := writes
    by_cases same : session = k
    · subst same
      exact ordered.unlock found waiting holding
    · apply ordered.undisturbed found waiting nofun (elsewhere same _)
      right
      rw [heldAfter, holding]
      simp [Hold.after, Hold.session, same]

end Resume

section Run
variable {dispatcher : Dispatcher} {codec : Base64} {admitted : CommandPayload → Prop} {after : ConsolePool}
  {event : ConsoleEvent}

theorem Ordered.start {world : World} {s : AttachSession} (session : world.sessions[k]? = some s)
    (unlocked : s.locked = false) : Ordered k s.stdin (Pool.start world) where
  keeps i thread found := by simp [Pool.start] at found
  nodup := List.nodup_nil
  took i := by simp [Took, Pool.start, lockOrder]
  holder i holds := by simp [Holds, Pool.start] at holds
  session := by
    refine ⟨s, session, (List.append_nil _).symm, ?_⟩
    simp [unlocked, Holds, Pool.start]

theorem Ordered.step (ordered : Ordered k base pool) (stepped : Steps dispatcher codec admitted pool event after) :
    Ordered k base after := by
  obtain ⟨⟨moved, allowed⟩, unblocked⟩ := stepped
  cases event with
  | receive cmd =>
    cases moved
    exact ordered.spawn (allowed cmd rfl).1
  | advance index choice =>
    obtain ⟨thread, c, next, found, waiting, rfl⟩ := Pool.step_advance moved
    exact ordered.resume found waiting unblocked

/-- An attempt to write takes at least one byte. -/
def unfailing (pool : ConsolePool) : ConsoleEvent → Bool
  | .advance index choice =>
      match (pool.threads[index]?).map Thread.rest, choice.poll with
      | some (.call (.pollWrite _ _) _), .error _ | some (.call (.pollWrite _ _) _), .ok 0 => false
      | _, _ => true
  | .receive _ => true

/-- No write of any task has failed. -/
def Unfailed (pool : ConsolePool) : Prop :=
  ∀ (i : Nat) (thread : ConsoleThread), pool.threads[i]? = some thread → thread.history.any failedWrite = false

theorem Unfailed.step (unfailed : Unfailed pool) (ordered : Ordered k base pool)
    (stepped : Steps dispatcher codec admitted pool event after) (intact : unfailing pool event = true) :
    Unfailed after := by
  obtain ⟨⟨moved, -⟩, -⟩ := stepped
  cases event with
  | receive cmd =>
    cases moved
    intro i thread found
    rcases Pool.spawn_threads found with old | rfl
    · exact unfailed i thread old
    · rfl
  | advance index choice =>
    obtain ⟨thread, c, next, found, waiting, rfl⟩ := Pool.step_advance moved
    have writes := (ordered.keeps index thread found).obeys.next waiting
    have succeeded : failedWrite ⟨c, (pool.world.fineReact choice c).1⟩ = false := by
      rcases writes.kinds with ⟨serverId, rfl⟩ | ⟨session, rfl⟩ | ⟨session, content, rfl⟩ | ⟨session, rfl⟩
      · rfl
      · rfl
      · obtain ⟨_, -, -, nonempty⟩ := writes
        rw [unfailing, found, Option.map_some, waiting] at intact
        cases taken : choice.poll with
        | error message => simp [taken] at intact
        | ok wanted =>
          cases wanted with
          | zero => simp [taken] at intact
          | succ wanted =>
            obtain ⟨byte, rest, rfl⟩ := List.exists_cons_of_ne_nil nonempty
            rw [World.fineReact, taken]
            rfl
      · rfl
    intro i other there
    rcases Pool.resume_threads there with ⟨-, old⟩ | ⟨-, rfl⟩
    · exact unfailed i other old
    · change (thread.history ++ [_]).any failedWrite = false
      rw [List.any_append, unfailed index thread found]
      simpa using succeeded

/-- The line of the task's command. -/
def lineOf (pool : ConsolePool) (i : Nat) : List UInt8 :=
  ((pool.threads[i]?).map fun thread => consoleLine thread.origin).getD []

/-- The task has written its line to the session. -/
def Completed (pool : ConsolePool) (k : SessionId) (i : Nat) : Prop :=
  Took pool k i ∧ writtenBy pool i = lineOf pool i

/-- Who has let go of the lock without a failure has written all of its line. -/
theorem Ordered.completed (ordered : Ordered k base pool) (unfailed : Unfailed pool)
    (member : i ∈ lockOrder k pool.log) (letGo : ¬ Holds pool k i) : Completed pool k i := by
  have took := (ordered.took i).mp member
  refine ⟨took, ?_⟩
  obtain ⟨thread, found, session⟩ := took
  rw [holds_iff found] at letGo
  rw [writtenBy_eq found, lineOf, found]
  cases held : hold thread.history with
  | waiting =>
    rw [held] at session
    cases session
  | holding session' written =>
    rw [held] at session
    cases session
    exact absurd ⟨written, held⟩ letGo
  | released session' written =>
    rcases (ordered.keeps i thread found).whole _ _ held with line | failed
    · exact line
    · rw [unfailed i thread found] at failed
      contradiction

/-- With no write failing, the stdin of a session that nobody has locked is made of the whole lines
of exactly the commands that have written theirs; while it is locked, the beginning of one further
line follows. -/
theorem console_lines_whole {world : World} {s₀ : AttachSession} {events : List ConsoleEvent}
    (session : world.sessions[k]? = some s₀) (unlocked : s₀.locked = false)
    (run : Run (Guarded (Steps dispatcher codec admitted) fun pool event => unfailing pool event = true)
      (Pool.start world) events pool) :
    ∃ s, pool.world.sessions[k]? = some s ∧
      (s.locked = false → ∃ order : List Nat, order.Nodup ∧ (∀ i, i ∈ order ↔ Completed pool k i) ∧
        s.stdin = s₀.stdin ++ order.flatMap (lineOf pool)) ∧
      (s.locked = true → ∃ (order : List Nat) (holder : Nat) (part : List UInt8), order.Nodup ∧ holder ∉ order ∧
        (∀ i ∈ order, Completed pool k i) ∧ part <+: lineOf pool holder ∧
        s.stdin = s₀.stdin ++ order.flatMap (lineOf pool) ++ part) := by
  have both : Ordered k s₀.stdin pool ∧ Unfailed pool := by
    apply run.invariant (P := fun pool => Ordered k s₀.stdin pool ∧ Unfailed pool)
    · rintro pool event after ⟨ordered, unfailed⟩ ⟨stepped, intact⟩
      exact ⟨ordered.step stepped, unfailed.step ordered stepped intact⟩
    · exact ⟨.start session unlocked, fun i thread found => by simp [Pool.start] at found⟩
  obtain ⟨ordered, unfailed⟩ := both
  obtain ⟨s, there, stdin, locked⟩ := ordered.session
  refine ⟨s, there, fun isFree => ?_, fun isLocked => ?_⟩
  · have nobody (i : Nat) : ¬ Holds pool k i := fun holds => by
      rw [locked.mpr ⟨i, holds⟩] at isFree
      contradiction
    have all (i : Nat) (member : i ∈ lockOrder k pool.log) : Completed pool k i :=
      ordered.completed unfailed member (nobody i)
    refine ⟨lockOrder k pool.log, ordered.nodup, fun i => ⟨all i, fun done => (ordered.took i).mpr done.1⟩, ?_⟩
    rw [stdin, List.flatMap_congr fun i member => (all i member).2]
  · obtain ⟨holder, holds⟩ := locked.mp isLocked
    obtain ⟨earlier, order, absent⟩ := ordered.last holds
    have all (i : Nat) (member : i ∈ earlier) : Completed pool k i := by
      apply ordered.completed unfailed
      · rw [order]
        exact List.mem_append_left _ member
      · intro other
        have same := (ordered.holder i other).symm.trans (ordered.holder holder holds)
        exact absent (Option.some.inj same ▸ member)
    have nodup := ordered.nodup
    rw [order] at nodup stdin
    refine ⟨earlier, holder, writtenBy pool holder, (List.nodup_append.mp nodup).1, absent, all, ?_, ?_⟩
    · obtain ⟨thread, written, found, holding⟩ := holds
      rw [writtenBy_eq found, lineOf, found, holding]
      exact (ordered.keeps holder thread found).part k written holding
    · rw [stdin, List.flatMap_append, List.flatMap_congr fun i member => (all i member).2,
        List.flatMap_singleton, List.append_assoc]

end Run

/-! ## Runs on one server -/

/-- Server `s1` with an open console, to which nothing was written yet. -/
def consoleWorld : World :=
  ⟨(∅ : HashMap String String).insert "s1" "c1", (∅ : HashMap String SessionId).insert "s1" 0, [],
    [⟨"c1", true, false, []⟩], [], 0, [], []⟩

def typed (input : String) : ConsoleEvent :=
  .receive { lifecycleCommand .consoleInput "s1" none with input := some input }

/-- The task's next call; an attempt to write takes at most so many bytes. -/
def goes (index taken : Nat) : ConsoleEvent := .advance index { willing with poll := .ok taken }

/-- The event is the arrival of a console command for the server, or no arrival. -/
def arrives : ConsoleEvent → Bool
  | .receive cmd => cmd.action == .consoleInput && cmd.serverId == "s1"
  | .advance _ _ => true

def exec (check : ConsolePool → ConsoleEvent → Bool) (events : List ConsoleEvent) : Option ConsolePool :=
  events.foldlM (fun pool event =>
    if arrives event && free pool event && check pool event then
      Pool.step World.fineReact (Dispatcher.defaultDispatcher.fineHandle Dispatcher.unusedCodec) pool event
    else none) (Pool.start consoleWorld)

theorem exec_run {check : ConsolePool → ConsoleEvent → Bool} {events : List ConsoleEvent}
    (ran : exec check events = some pool) :
    Run (Guarded (Steps Dispatcher.defaultDispatcher Dispatcher.unusedCodec fun cmd => cmd.serverId = "s1")
      fun pool event => check pool event = true) (Pool.start consoleWorld) events pool := by
  apply (Run.of_foldlM_guarded ran).mono
  rintro pool event after ⟨stepped, checked⟩
  simp only [Bool.and_eq_true] at checked
  obtain ⟨⟨arrival, unblocked⟩, passed⟩ := checked
  refine ⟨⟨⟨stepped, ?_⟩, unblocked⟩, passed⟩
  rintro cmd rfl
  simpa [arrives] using arrival

/-- The second task writes `c` while the first waits; then `ab` is taken byte by byte. -/
def secondFirst : List ConsoleEvent :=
  [typed "ab", typed "c", goes 1 0, goes 1 0, goes 0 0, goes 1 9, goes 1 1, goes 1 0, goes 0 0, goes 0 1, goes 0 1,
    goes 0 1, goes 0 0]

theorem split_writes_whole : ∃ (pool : ConsolePool) (s : AttachSession) (order : List Nat),
    pool.world.sessions[0]? = some s ∧ s.locked = false ∧
    s.stdin = Text.bytes "c\nab\n" ∧ (∀ i, i ∈ order ↔ Completed pool 0 i) ∧
    s.stdin = [] ++ order.flatMap (lineOf pool) := by
  have facts : (exec unfailing secondFirst).any (fun pool =>
      pool.world.sessions == [⟨"c1", true, false, Text.bytes "c\nab\n"⟩]) = true := by
    decide +kernel
  obtain ⟨pool, ran, shown⟩ := (Option.any_eq_true _ _).mp facts
  rw [beq_iff_eq] at shown
  have session : consoleWorld.sessions[0]? = some ⟨"c1", true, false, []⟩ := rfl
  obtain ⟨s, there, whole, -⟩ := console_lines_whole session rfl (exec_run ran)
  have same := there
  rw [shown] at same
  cases same
  obtain ⟨order, -, completed, stdin⟩ := whole rfl
  exact ⟨pool, _, order, there, rfl, rfl, completed, stdin⟩

end ConsolePool

end SkyDaemon.Agent
