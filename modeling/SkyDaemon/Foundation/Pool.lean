import SkyDaemon.Foundation.Interpret
import SkyDaemon.Foundation.Threads
import SkyDaemon.Foundation.Transition

/-! Threads in one world. A step starts a thread or answers the next call of one of them,
and the log keeps every exchange together with the world that it met. -/
namespace SkyDaemon
open Program Transition

structure Logged (σ ι C : Type) (R : C → Type) where
  thread : Nat
  origin : ι
  before : σ
  exchange : Exchange C R

structure Pool (σ ι C : Type) (R : C → Type) (α : Type) where
  world : σ
  threads : List (Thread ι C R α)
  log : List (Logged σ ι C R)

inductive Pool.Event (ι χ : Type) where
  | receive (origin : ι)
  | advance (index : Nat) (choice : χ)

namespace Thread
variable {ι C α : Type} {R : C → Type}

/-- The thread's calls and its result are as promised for what it was started for. -/
def Obeys (calls : ι → List (Exchange C R) → C → Prop) (post : ι → List (Exchange C R) → α → Prop)
    (thread : Thread ι C R α) : Prop :=
  thread.rest.Meets (calls thread.origin) (post thread.origin) thread.history

variable {calls : ι → List (Exchange C R) → C → Prop} {post : ι → List (Exchange C R) → α → Prop}
  {thread : Thread ι C R α}

theorem Obeys.next {call : C} {next : R call → Program C R α} (obeys : thread.Obeys calls post)
    (waiting : thread.rest = .call call next) : calls thread.origin thread.history call := by
  rw [Obeys, waiting] at obeys
  exact obeys.1

theorem Obeys.resume {call : C} {next : R call → Program C R α} (obeys : thread.Obeys calls post)
    (waiting : thread.rest = .call call next) (answer : R call) :
    (thread.resume call answer (next answer)).Obeys calls post := by
  rw [Obeys, waiting] at obeys
  exact obeys.2 answer

theorem Obeys.ended {value : α} (obeys : thread.Obeys calls post) (done : thread.rest = .done value) :
    post thread.origin thread.history value := by
  rw [Obeys, done] at obeys
  exact obeys

end Thread

namespace Pool
variable {σ χ ι C α : Type} {R : C → Type}

def start (world : σ) : Pool σ ι C R α := ⟨world, [], []⟩

section Step
variable (react : Reaction σ χ C R) (program : ι → Program C R α)

def spawn (pool : Pool σ ι C R α) (origin : ι) : Pool σ ι C R α :=
  { pool with threads := pool.threads ++ [.spawn program origin] }

/-- The thread's call is answered. -/
def resume (pool : Pool σ ι C R α) (index : Nat) (choice : χ) (thread : Thread ι C R α) (c : C)
    (next : R c → Program C R α) : Pool σ ι C R α where
  world := (react pool.world choice c).2
  threads := pool.threads.set index
    (thread.resume c (react pool.world choice c).1 (next (react pool.world choice c).1))
  log := pool.log ++ [⟨index, thread.origin, pool.world, ⟨c, (react pool.world choice c).1⟩⟩]

def step (pool : Pool σ ι C R α) : Event ι χ → Option (Pool σ ι C R α)
  | .receive origin => some (pool.spawn program origin)
  | .advance index choice =>
      match pool.threads[index]? with
      | none => none
      | some thread =>
          match thread.rest with
          | .done _ | .fail _ => none
          | .call c next => some (pool.resume react index choice thread c next)

/-- Steps that start threads for admitted origins only. -/
def Steps (admitted : ι → Prop) (pool : Pool σ ι C R α) (event : Event ι χ) (after : Pool σ ι C R α) : Prop :=
  pool.step react program event = some after ∧ ∀ origin, event = .receive origin → admitted origin

end Step

variable {react : Reaction σ χ C R} {program : ι → Program C R α} {admitted : ι → Prop}
  {pool after : Pool σ ι C R α} {event : Event ι χ}

/-- A thread that goes on was at a call. -/
theorem step_advance {index : Nat} {choice : χ}
    (stepped : pool.step react program (.advance index choice) = some after) :
    ∃ thread c next, pool.threads[index]? = some thread ∧ thread.rest = .call c next ∧
      after = pool.resume react index choice thread c next := by
  rw [step] at stepped
  split at stepped
  · contradiction
  · rename_i thread found
    split at stepped
    · contradiction
    · contradiction
    · rename_i c next waiting
      cases stepped
      exact ⟨thread, c, next, found, waiting, rfl⟩

theorem Steps.cases (steps : Steps react program admitted pool event after) :
    (∃ origin, admitted origin ∧ after = pool.spawn program origin) ∨
      ∃ index choice thread c next, pool.threads[index]? = some thread ∧
        thread.rest = .call c next ∧ after = pool.resume react index choice thread c next := by
  obtain ⟨stepped, allowed⟩ := steps
  cases event with
  | receive origin =>
    cases stepped
    exact .inl ⟨origin, allowed origin rfl, rfl⟩
  | advance index choice => exact .inr ⟨index, choice, step_advance stepped⟩

/-- What starting a thread and answering a call keep holds along every run. -/
theorem run_invariant {P : Pool σ ι C R α → Prop}
    (spawned : ∀ pool origin, admitted origin → P pool → P (pool.spawn program origin))
    (resumed : ∀ pool index choice thread c next, pool.threads[index]? = some thread →
      thread.rest = .call c next → P pool → P (pool.resume react index choice thread c next))
    (run : Run (Steps react program admitted) pool events after) (initial : P pool) : P after := by
  refine run.invariant ?_ initial
  intro pool event after holds steps
  rcases steps.cases with ⟨origin, allowed, rfl⟩ | ⟨index, choice, thread, c, next, found, waiting, rfl⟩
  · exact spawned pool origin allowed holds
  · exact resumed pool index choice thread c next found waiting holds

/-- The run of the step function through events that start admitted threads only. -/
theorem run_of_foldlM {events : List (Event ι χ)} (folded : events.foldlM (step react program) pool = some after)
    (admits : ∀ origin, .receive origin ∈ events → admitted origin) :
    Run (Steps react program admitted) pool events after := by
  induction events generalizing pool with
  | nil =>
    cases folded
    exact .refl _
  | cons event events ih =>
    obtain ⟨mid, first, rest⟩ := Option.bind_eq_some_iff.mp folded
    refine .next ⟨first, fun origin same => admits origin (by simp [same])⟩ (ih rest fun origin member => ?_)
    exact admits origin (List.mem_cons_of_mem _ member)

section Threads
variable {origin : ι} {index i : Nat} {choice : χ} {thread other : Thread ι C R α} {c : C}
  {next : R c → Program C R α}

theorem spawn_threads (found : (pool.spawn program origin).threads[i]? = some other) :
    pool.threads[i]? = some other ∨ other = .spawn program origin := by
  rw [spawn, List.getElem?_append] at found
  split at found
  · exact .inl found
  · exact .inr (List.mem_singleton.mp (List.mem_of_getElem? found))

theorem resume_threads (found : (pool.resume react index choice thread c next).threads[i]? = some other) :
    i ≠ index ∧ pool.threads[i]? = some other ∨
      i = index ∧ other = thread.resume c (react pool.world choice c).1 (next (react pool.world choice c).1) := by
  rw [resume, List.getElem?_set] at found
  split at found
  · rename_i here
    split at found
    · cases found
      exact .inr ⟨here.symm, rfl⟩
    · contradiction
  · rename_i away
    exact .inl ⟨fun same => away same.symm, found⟩

/-- What holds of every thread holds with one more that starts with it. -/
theorem forall_spawn {P : Thread ι C R α → Prop} (all : ∀ thread ∈ pool.threads, P thread)
    (new : P (.spawn program origin)) : ∀ thread ∈ (pool.spawn program origin).threads, P thread := by
  intro thread member
  rcases List.mem_append.mp member with old | last
  · exact all thread old
  · cases List.mem_singleton.mp last
    exact new

/-- Only the thread that goes on has to be looked at again. -/
theorem forall_resume {P : Thread ι C R α → Prop} (all : ∀ thread ∈ pool.threads, P thread)
    (resumed : P (thread.resume c (react pool.world choice c).1 (next (react pool.world choice c).1))) :
    ∀ later ∈ (pool.resume react index choice thread c next).threads, P later := by
  intro later member
  rcases List.mem_or_eq_of_mem_set member with old | rfl
  · exact all later old
  · exact resumed

end Threads

section Histories
variable {world : σ} {events : List (Event ι χ)}

/-- What a thread still does completes a run of its program. -/
theorem run_continues (run : Run (Steps react program admitted) (start world) events pool) :
    ∀ thread ∈ pool.threads, ∀ made result, thread.rest.Ran made result →
      (program thread.origin).Ran (thread.history ++ made) result := by
  refine run_invariant (P := fun pool => ∀ thread ∈ pool.threads, ∀ made result, thread.rest.Ran made result →
    (program thread.origin).Ran (thread.history ++ made) result) ?_ ?_ run (by rintro _ ⟨⟩)
  · exact fun pool origin _ holds => forall_spawn holds fun made result ran => ran
  · intro pool index choice thread c next found waiting holds
    refine forall_resume holds fun made result ran => ?_
    have before := holds thread (List.mem_of_getElem? found) (⟨c, (react pool.world choice c).1⟩ :: made) result
    rw [Thread.resume, List.append_assoc]
    exact before (waiting ▸ .call ran)

/-- The history of a thread that has ended is a whole run of its program. -/
theorem ended_ran (run : Run (Steps react program admitted) (start world) events pool) {thread : Thread ι C R α}
    (member : thread ∈ pool.threads) (ended : ∀ c next, thread.rest ≠ .call c next) :
    ∃ result, (program thread.origin).Ran thread.history result := by
  have continues := run_continues run thread member []
  rw [List.append_nil] at continues
  cases rest : thread.rest with
  | done value =>
    rw [rest] at continues
    exact ⟨_, continues _ (.done value)⟩
  | fail message =>
    rw [rest] at continues
    exact ⟨_, continues _ (.fail message)⟩
  | call c next => exact absurd rest (ended c next)

/-- Answers that are always of one kind are so in every history. -/
theorem run_answered {sound : (c : C) → R c → Prop} (reacts : ∀ world choice c, sound c (react world choice c).1)
    (run : Run (Steps react program admitted) (start world) events pool) :
    ∀ thread ∈ pool.threads, ∀ exchange ∈ thread.history, sound exchange.1 exchange.2 := by
  refine run_invariant (P := fun pool => ∀ thread ∈ pool.threads, ∀ exchange ∈ thread.history,
    sound exchange.1 exchange.2) ?_ ?_ run (by rintro _ ⟨⟩)
  · exact fun pool origin _ holds => forall_spawn holds (by rintro _ ⟨⟩)
  · intro pool index choice thread c next found waiting holds
    refine forall_resume holds fun exchange member => ?_
    rcases List.mem_append.mp member with earlier | last
    · exact holds thread (List.mem_of_getElem? found) exchange earlier
    · rw [List.mem_singleton.mp last]
      exact reacts pool.world choice c

end Histories

section Tally
variable {count count' : Thread ι C R α → Nat}

/-- A number summed over the threads. -/
def tally (count : Thread ι C R α → Nat) (pool : Pool σ ι C R α) : Nat :=
  pool.threads.foldr (fun thread total => count thread + total) 0

theorem foldr_append_count {β : Type} (count : β → Nat) (first second : List β) :
    (first ++ second).foldr (fun item total => count item + total) 0 =
      first.foldr (fun item total => count item + total) 0 +
        second.foldr (fun item total => count item + total) 0 := by
  induction first with
  | nil => simp
  | cons item first ih =>
    simp only [List.cons_append, List.foldr_cons, ih]
    omega

theorem tally_spawn (origin : ι) :
    (pool.spawn program origin).tally count = pool.tally count + count (.spawn program origin) := by
  simp only [tally, spawn, foldr_append_count, List.foldr_cons, List.foldr_nil, Nat.add_zero]

/-- The sum grows by what the thread that goes on adds. -/
theorem tally_resume {index more : Nat} {choice : χ} {thread : Thread ι C R α} {c : C} {next : R c → Program C R α}
    (found : pool.threads[index]? = some thread)
    (adds : count (thread.resume c (react pool.world choice c).1 (next (react pool.world choice c).1)) =
      count thread + more) :
    (pool.resume react index choice thread c next).tally count = pool.tally count + more := by
  obtain ⟨bound, rfl⟩ := List.getElem?_eq_some_iff.mp found
  have parts := congrArg (List.foldr (fun thread total => count thread + total) 0)
    (List.take_append_drop index pool.threads)
  rw [List.drop_eq_getElem_cons bound] at parts
  simp only [tally, resume, List.set_eq_take_append_cons_drop, bound, if_true]
  simp only [foldr_append_count, List.foldr_cons] at parts ⊢
  omega

theorem tally_add :
    pool.tally (fun thread => count thread + count' thread) = pool.tally count + pool.tally count' := by
  unfold tally
  induction pool.threads with
  | nil => rfl
  | cons first rest ih =>
    simp only [List.foldr_cons, ih]
    omega

theorem tally_congr (same : ∀ thread ∈ pool.threads, count thread = count' thread) :
    pool.tally count = pool.tally count' :=
  List.foldr_ext _ _ 0 fun thread member total => congrArg (· + total) (same thread member)

end Tally

/-- Every thread does as promised, and its history is in the log. -/
structure Sound (calls : ι → List (Exchange C R) → C → Prop) (post : ι → List (Exchange C R) → α → Prop)
    (pool : Pool σ ι C R α) : Prop where
  obeys : ∀ (i : Nat) thread, pool.threads[i]? = some thread → thread.Obeys calls post
  logged : ∀ (i : Nat) thread, pool.threads[i]? = some thread → ∀ exchange ∈ thread.history,
    ∃ entry ∈ pool.log, entry.thread = i ∧ entry.exchange = exchange

section Sound
variable {calls : ι → List (Exchange C R) → C → Prop} {post : ι → List (Exchange C R) → α → Prop}

theorem sound_start (world : σ) : (start world : Pool σ ι C R α).Sound calls post where
  obeys i thread found := by simp [start] at found
  logged i thread found := by simp [start] at found

theorem Sound.spawn (sound : pool.Sound calls post) {origin : ι}
    (promised : (program origin).Meets (calls origin) (post origin) []) :
    (pool.spawn program origin).Sound calls post := by
  constructor
  · intro i thread found
    rcases spawn_threads found with old | rfl
    · exact sound.obeys i thread old
    · exact promised
  · intro i thread found exchange member
    rcases spawn_threads found with old | rfl
    · exact sound.logged i thread old exchange member
    · contradiction

theorem Sound.resume {index : Nat} {choice : χ} {thread : Thread ι C R α} {c : C} {next : R c → Program C R α}
    (sound : pool.Sound calls post) (found : pool.threads[index]? = some thread)
    (waiting : thread.rest = .call c next) : (pool.resume react index choice thread c next).Sound calls post := by
  have grows {entry : Logged σ ι C R} (member : entry ∈ pool.log) :
      entry ∈ (pool.resume react index choice thread c next).log := List.mem_append_left _ member
  constructor
  · intro i other found'
    rcases resume_threads found' with ⟨-, old⟩ | ⟨-, rfl⟩
    · exact sound.obeys i other old
    · exact (sound.obeys index thread found).resume waiting _
  · intro i other found' exchange member
    rcases resume_threads found' with ⟨-, old⟩ | ⟨rfl, rfl⟩
    · obtain ⟨entry, there, same⟩ := sound.logged i other old exchange member
      exact ⟨entry, grows there, same⟩
    · rcases List.mem_append.mp member with earlier | last
      · obtain ⟨entry, there, same⟩ := sound.logged i thread found exchange earlier
        exact ⟨entry, grows there, same⟩
      · cases List.mem_singleton.mp last
        exact ⟨_, List.mem_append_right _ (List.mem_singleton_self _), rfl, rfl⟩

end Sound

end Pool
end SkyDaemon
