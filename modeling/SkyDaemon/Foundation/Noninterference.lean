import SkyDaemon.Foundation.Pool

/-! Threads that cannot tell whether others run beside them. An observer owns some of the
origins and sees part of the world. If calls of its threads depend on that part alone and
calls of the others leave it as it is, then a run with the others purged is a run too, and the
observed threads come to the same point in both. -/
namespace SkyDaemon.Pool
open Program Transition
variable {σ χ ι C α : Type} {R : C → Type}

/-- The events of the owned threads. A thread has its number among the owned ones, which
are counted in the origins of the threads started so far. -/
def purge (own : ι → Bool) : List ι → List (Event ι χ) → List (Event ι χ)
  | _, [] => []
  | origins, .receive origin :: events =>
      (if own origin then [.receive origin] else []) ++ purge own (origins ++ [origin]) events
  | origins, .advance index choice :: events =>
      (if (origins[index]?).any own then [.advance ((origins.take index).countP own) choice] else []) ++
        purge own origins events

def origins (pool : Pool σ ι C R α) : List ι := pool.threads.map (·.origin)

/-- What the unwinding of a run needs: `agree` relates worlds that look alike, and `calls` is
what the programs keep to. -/
structure Unwinding (react : Reaction σ χ C R) (own : ι → Bool) (calls : ι → C → Prop) (agree : σ → σ → Prop) :
    Prop where
  consistent : ∀ origin c world world' choice, own origin = true → calls origin c → agree world world' →
    (react world choice c).1 = (react world' choice c).1 ∧ agree (react world choice c).2 (react world' choice c).2
  respects : ∀ origin c world world' choice, own origin = false → calls origin c → agree world world' →
    agree (react world choice c).2 world'

/-- The second pool has the owned threads of the first, in a world that looks alike. -/
structure Sees (own : ι → Bool) (calls : ι → C → Prop) (agree : σ → σ → Prop) (pool alone : Pool σ ι C R α) :
    Prop where
  conducts : ∀ thread ∈ pool.threads, thread.rest.All (calls thread.origin)
  threads : alone.threads = pool.threads.filter (own ·.origin)
  world : agree pool.world alone.world

section Purge
variable {react : Reaction σ χ C R} {program : ι → Program C R α} {admitted : ι → Prop} {own : ι → Bool}
  {calls : ι → C → Prop} {agree : σ → σ → Prop} {pool alone after : Pool σ ι C R α}

theorem Sees.start {world world' : σ} (alike : agree world world') :
    Sees own calls agree (Pool.start world : Pool σ ι C R α) (Pool.start world') :=
  ⟨by simp [Pool.start], rfl, alike⟩

theorem Sees.spawn (sees : Sees own calls agree pool alone) {origin : ι}
    (keeps : (program origin).All (calls origin)) :
    Sees own calls agree (pool.spawn program origin)
      (if own origin then alone.spawn program origin else alone) := by
  have conducts : ∀ thread ∈ (pool.spawn program origin).threads, thread.rest.All (calls thread.origin) := by
    intro thread member
    rcases List.mem_append.mp member with old | new
    · exact sees.conducts thread old
    · rw [List.mem_singleton.mp new]
      exact keeps
  by_cases mine : own origin = true
  · rw [if_pos mine]
    refine ⟨conducts, ?_, sees.world⟩
    simp [Pool.spawn, sees.threads, Thread.spawn, mine]
  · rw [if_neg mine]
    refine ⟨conducts, ?_, sees.world⟩
    simp [Pool.spawn, sees.threads, Thread.spawn, mine]

/-- Replacing an owned item is replacing it among the owned ones. -/
theorem filter_set_own {β : Type} (keep : β → Bool) {items : List β} {index : Nat} {item : β}
    (found : items[index]? = some item) (kept : keep item = true) {other : β} (kept' : keep other = true) :
    (items.filter keep)[(items.take index).countP keep]? = some item ∧
      (items.set index other).filter keep = (items.filter keep).set ((items.take index).countP keep) other := by
  induction items generalizing index with
  | nil => simp at found
  | cons first rest ih =>
    cases index with
    | zero =>
      cases found
      simp [kept, kept']
    | succ index =>
      obtain ⟨there, replaced⟩ := ih (by simpa using found)
      by_cases mine : keep first = true
      · simp [mine, there, replaced]
      · simp [mine, there, replaced]

/-- Replacing an item that is not owned changes nothing among the owned ones. -/
theorem filter_set_other {β : Type} (keep : β → Bool) {items : List β} {index : Nat} {item : β}
    (found : items[index]? = some item) (dropped : keep item = false) {other : β} (dropped' : keep other = false) :
    (items.set index other).filter keep = items.filter keep := by
  induction items generalizing index with
  | nil => simp at found
  | cons first rest ih =>
    cases index with
    | zero =>
      cases found
      simp [dropped, dropped']
    | succ index => simp [List.filter_cons, ih (by simpa using found)]

/-- The next call of a thread keeps to the rule, and so does what follows it. -/
theorem Sees.next (sees : Sees own calls agree pool alone) {index : Nat} {thread : Thread ι C R α} {c : C}
    {next : R c → Program C R α} (found : pool.threads[index]? = some thread) (waiting : thread.rest = .call c next) :
    calls thread.origin c ∧ ∀ answer, (next answer).All (calls thread.origin) := by
  have kept := sees.conducts thread (List.mem_of_getElem? found)
  rw [waiting] at kept
  exact kept

theorem Sees.conducts_resume (sees : Sees own calls agree pool alone) {index : Nat} {choice : χ}
    {thread : Thread ι C R α} {c : C} {next : R c → Program C R α} (found : pool.threads[index]? = some thread)
    (waiting : thread.rest = .call c next) :
    ∀ other ∈ (pool.resume react index choice thread c next).threads, other.rest.All (calls other.origin) := by
  intro other member
  rcases List.mem_or_eq_of_mem_set member with old | rfl
  · exact sees.conducts other old
  · exact (sees.next found waiting).2 _

/-- An owned thread goes on in both pools with the same answer. -/
theorem Sees.resume_own (sees : Sees own calls agree pool alone) (unwinding : Unwinding react own calls agree)
    {index : Nat} (choice : χ) {thread : Thread ι C R α} {c : C} {next : R c → Program C R α}
    (found : pool.threads[index]? = some thread) (waiting : thread.rest = .call c next)
    (mine : own thread.origin = true) :
    alone.threads[(pool.threads.take index).countP (own ·.origin)]? = some thread ∧
      Sees own calls agree (pool.resume react index choice thread c next)
        (alone.resume react ((pool.threads.take index).countP (own ·.origin)) choice thread c next) := by
  obtain ⟨same, alike⟩ := unwinding.consistent thread.origin c pool.world alone.world choice mine
    (sees.next found waiting).1 sees.world
  have still : own (thread.resume c (react pool.world choice c).1 (next (react pool.world choice c).1)).origin = true :=
    mine
  obtain ⟨there, replaced⟩ := filter_set_own (fun thread => own thread.origin) found mine still
  refine ⟨by rw [sees.threads]; exact there, sees.conducts_resume found waiting, ?_, alike⟩
  rw [resume, resume, ← same, sees.threads]
  exact replaced.symm

/-- A thread of somebody else goes on unnoticed. -/
theorem Sees.resume_other (sees : Sees own calls agree pool alone) (unwinding : Unwinding react own calls agree)
    {index : Nat} (choice : χ) {thread : Thread ι C R α} {c : C} {next : R c → Program C R α}
    (found : pool.threads[index]? = some thread) (waiting : thread.rest = .call c next)
    (other : own thread.origin = false) :
    Sees own calls agree (pool.resume react index choice thread c next) alone where
  conducts := sees.conducts_resume found waiting
  threads := by
    have still :
        own (thread.resume c (react pool.world choice c).1 (next (react pool.world choice c).1)).origin = false :=
      other
    rw [sees.threads]
    exact (filter_set_other (fun thread => own thread.origin) found other still).symm
  world := unwinding.respects thread.origin c pool.world alone.world choice other (sees.next found waiting).1 sees.world

theorem origins_spawn (pool : Pool σ ι C R α) (origin : ι) :
    (pool.spawn program origin).origins = pool.origins ++ [origin] := by
  simp [origins, spawn, Thread.spawn]

theorem origins_resume {index : Nat} (choice : χ) {thread : Thread ι C R α} {c : C} {next : R c → Program C R α}
    (found : pool.threads[index]? = some thread) :
    (pool.resume react index choice thread c next).origins = pool.origins := by
  rw [origins, resume, List.map_set, Thread.resume]
  apply List.ext_getElem?
  intro i
  rw [List.getElem?_set]
  split
  · rename_i here
    subst here
    split
    · simp [origins, found]
    · rename_i outside
      rw [List.length_map] at outside
      rw [List.getElem?_eq_none (by omega)] at found
      cases found
  · rfl

/-- The purged run comes to the owned threads of the whole run, each with the answers it had. -/
theorem purge_run (unwinding : Unwinding react own calls agree)
    (keeps : ∀ origin, admitted origin → (program origin).All (calls origin))
    {events : List (Event ι χ)} (run : Run (Steps react program admitted) pool events after)
    (sees : Sees own calls agree pool alone) :
    ∃ alone', Run (Steps react program admitted) alone (purge own pool.origins events) alone' ∧
      Sees own calls agree after alone' := by
  induction run generalizing alone with
  | refl pool => exact ⟨alone, .refl alone, sees⟩
  | @next pool event mid events after steps _ ih =>
    obtain ⟨stepped, allowed⟩ := steps
    cases event with
    | receive origin =>
      cases stepped
      obtain ⟨alone', rest, ended⟩ := ih (sees.spawn (keeps origin (allowed origin rfl)))
      rw [origins_spawn] at rest
      refine ⟨alone', ?_, ended⟩
      rw [purge]
      split at rest
      · rename_i mine
        rw [if_pos mine]
        exact .next ⟨rfl, allowed⟩ rest
      · rename_i other
        rw [if_neg other]
        exact rest
    | advance index choice =>
      obtain ⟨thread, c, next, found, waiting, rfl⟩ := step_advance stepped
      have origin : pool.origins[index]? = some thread.origin := by simp [origins, found]
      have count : (pool.origins.take index).countP own = (pool.threads.take index).countP (own ·.origin) := by
        rw [origins, ← List.map_take, List.countP_map]
        rfl
      rw [purge, origin, Option.any_some, count]
      by_cases mine : own thread.origin = true
      · obtain ⟨there, sees'⟩ := sees.resume_own unwinding choice found waiting mine
        obtain ⟨alone', rest, ended⟩ := ih sees'
        rw [origins_resume choice found] at rest
        refine ⟨alone', ?_, ended⟩
        rw [if_pos mine]
        refine .next ⟨?_, by simp⟩ rest
        rw [step, there]
        dsimp only
        rw [waiting]
      · rw [Bool.not_eq_true] at mine
        obtain ⟨alone', rest, ended⟩ := ih (sees.resume_other unwinding choice found waiting mine)
        rw [origins_resume choice found] at rest
        refine ⟨alone', ?_, ended⟩
        rw [mine]
        exact rest

end Purge
end SkyDaemon.Pool
