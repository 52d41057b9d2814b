import SkyDaemon.Foundation.Effect
import SkyDaemon.Foundation.Program

/-! Programs run on their own in a world that answers their calls. What the world does
not determine (a fault, a clock reading, an answer from outside) is drawn from a supply
of choices, one for each call, and every exchange is recorded. -/
namespace SkyDaemon.Program

/-- The answer to a call and the world after it. -/
abbrev Reaction (σ χ C : Type) (R : C → Type) := σ → χ → (c : C) → R c × σ

/-- A world, the exchanges it has had and the choices to come. -/
structure Course (σ χ C : Type) (R : C → Type) where
  world : σ
  past : List (Exchange C R)
  coming : Nat → χ

namespace Course
variable {σ χ C : Type} {R : C → Type}

def start (world : σ) (choices : Nat → χ) : Course σ χ C R := ⟨world, [], choices⟩

@[simp] theorem start_world (world : σ) (choices : Nat → χ) :
    (start world choices : Course σ χ C R).world = world := rfl

def answer (react : Reaction σ χ C R) (course : Course σ χ C R) (c : C) : R c :=
  (react course.world (course.coming 0) c).1

def after (react : Reaction σ χ C R) (course : Course σ χ C R) (c : C) : Course σ χ C R where
  world := (react course.world (course.coming 0) c).2
  past := course.past ++ [⟨c, course.answer react c⟩]
  coming n := course.coming (n + 1)

end Course

section Execute
variable {σ χ C α β : Type} {R : C → Type} (react : Reaction σ χ C R)

def execute : Program C R α → Effect (Course σ χ C R) α
  | .done value => pure value
  | .fail message => Effect.fail message
  | .call c next => fun course => (next (course.answer react c)).execute (course.after react c)

@[simp] theorem execute_done (value : α) : (done value : Program C R α).execute react = pure value := rfl

@[simp] theorem execute_pure (value : α) :
    (pure value : Program C R α).execute react = (pure value : Effect (Course σ χ C R) α) := rfl

@[simp] theorem execute_fail (message : String) :
    (fail message : Program C R α).execute react = Effect.fail message := rfl

theorem execute_bind (x : Program C R α) (f : α → Program C R β) :
    (x >>= f).execute react = x.execute react >>= fun value => (f value).execute react := by
  induction x with
  | done value => rfl
  | fail message => rfl
  | call c next ih =>
    funext course
    exact congrFun (ih (course.answer react c)) (course.after react c)

theorem execute_perform_bind (c : C) (f : R c → Program C R α) (course : Course σ χ C R) :
    (perform c >>= f).execute react course =
      (f (course.answer react c)).execute react (course.after react c) := rfl

/-- A program whose value is discarded. -/
theorem execute_bind_pure (x : Program C R α) (value : β) (course : Course σ χ C R) :
    (x >>= fun _ => pure value).execute react course =
      ((x.execute react course).1.map fun _ => value, (x.execute react course).2) := by
  rw [execute_bind]
  rcases ran : x.execute react course with ⟨_ | _, after⟩
  · rw [Effect.bind_run_error ran]
    rfl
  · rw [Effect.bind_run_ok ran]
    rfl

/-- The attempt ends where the program does, with its result as a value. -/
theorem execute_attempt (x : Program C R α) : x.attempt.execute react = (x.execute react).attempt := by
  induction x with
  | done value => rfl
  | fail message => rfl
  | call c next ih =>
    funext course
    exact congrFun (ih (course.answer react c)) (course.after react c)

theorem execute_withContext (message : String) (x : Program C R α) :
    (x.withContext message).execute react = (x.execute react).context message := by
  induction x with
  | done value => rfl
  | fail text => rfl
  | call c next ih =>
    funext course
    exact congrFun (ih (course.answer react c)) (course.after react c)

/-- Naming the error and mapping the value do not change where a program ends. -/
theorem execute_withContext_end (message : String) (x : Program C R α) (f : α → β) (course : Course σ χ C R) :
    ((x.withContext message >>= fun value => pure (f value)).execute react course).2 = (x.execute react course).2 := by
  rw [execute_bind, execute_withContext]
  rcases ran : x.execute react course with ⟨text | value, after⟩
  · rw [Effect.bind_run_error (Effect.context_run_error ran)]
  · rw [Effect.bind_run_ok (Effect.context_run_ok ran)]
    rfl

/-- The exchanges of an execution are a run of the program. -/
theorem execute_ran (program : Program C R α) (course : Course σ χ C R) :
    ∃ made, (program.execute react course).2.past = course.past ++ made ∧
      program.Ran made (program.execute react course).1 := by
  induction program generalizing course with
  | done value => exact ⟨[], (List.append_nil _).symm, .done value⟩
  | fail message => exact ⟨[], (List.append_nil _).symm, .fail message⟩
  | call c next ih =>
    obtain ⟨made, past, ran⟩ := ih (course.answer react c) (course.after react c)
    refine ⟨⟨c, course.answer react c⟩ :: made, ?_, .call ran⟩
    rw [execute, past, Course.after, List.append_assoc]
    rfl

variable {react}

/-- What every allowed call keeps holds after the run. -/
theorem execute_keeps {P : Course σ χ C R → Prop} {Q : C → Prop} {program : Program C R α}
    (all : program.All Q) (keeps : ∀ course c, Q c → P course → P (course.after react c))
    {course : Course σ χ C R} (before : P course) : P (program.execute react course).2 := by
  induction program generalizing course with
  | done value => exact before
  | fail message => exact before
  | call c next ih => exact ih (course.answer react c) (all.2 _) (keeps course c all.1 before)

theorem execute_unfailing {program : Program C R α} (unfailing : program.Unfailing)
    (course : Course σ χ C R) : ∃ value, (program.execute react course).1 = .ok value := by
  induction program generalizing course with
  | done value => exact ⟨value, rfl⟩
  | fail message => exact unfailing.elim
  | call c next ih => exact ih _ (unfailing _) (course.after react c)

/-- A program that commits last has made none but allowed calls when it fails. -/
theorem execute_failed_keeps {P : Course σ χ C R → Prop} {Q : C → Prop} {program : Program C R α}
    (commits : program.CommitsLast Q) (keeps : ∀ course c, Q c → P course → P (course.after react c))
    {course : Course σ χ C R} (before : P course)
    (failed : (program.execute react course).1 = .error message) : P (program.execute react course).2 := by
  induction program generalizing course with
  | done value => exact before
  | fail text => exact before
  | call c next ih =>
    rcases commits with ⟨allowed, following⟩ | certain
    · exact ih _ (following _) (keeps course c allowed before) failed
    · obtain ⟨value, ended⟩ := execute_unfailing (certain (course.answer react c)) (course.after react c)
      cases ended.symm.trans failed

/-- A run that got a value goes on from there. -/
theorem execute_bind_ok {x : Program C R α} {f : α → Program C R β} {course mid : Course σ χ C R}
    (ran : x.execute react course = (.ok value, mid)) :
    (x >>= f).execute react course = (f value).execute react mid := by
  rw [execute_bind, Effect.bind_run_ok ran]

/-- A call with a known outcome. -/
theorem execute_reacted {c : C} {course : Course σ χ C R} {answer : R c} {world : σ} (f : R c → Program C R α)
    (reacted : react course.world (course.coming 0) c = (answer, world)) :
    (perform c >>= f).execute react course = (f answer).execute react (course.after react c) ∧
      (course.after react c).world = world := by
  have answered : course.answer react c = answer := congrArg Prod.fst reacted
  constructor
  · rw [execute_perform_bind, answered]
  · exact congrArg Prod.snd reacted

end Execute

/-! ## Programs that carry out an effect -/

section Performs
variable {σ χ C α β : Type} {R : C → Type} (react : Reaction σ χ C R) (choice : χ)

/-- As long as the surroundings decide every call alike, the program has the effect's result and
leaves its state. -/
def Performs (program : Program C R α) (effect : Effect σ α) : Prop :=
  ∀ course : Course σ χ C R, (∀ n, course.coming n = choice) →
    (program.execute react course).1 = (effect course.world).1 ∧
      (program.execute react course).2.world = (effect course.world).2 ∧
      ∀ n, (program.execute react course).2.coming n = choice

variable {react choice}

theorem Performs.pure (value : α) : Performs react choice (.done value) (pure value) :=
  fun _ same => ⟨rfl, rfl, same⟩

theorem Performs.fail (message : String) :
    Performs react choice (.fail message : Program C R α) (Effect.fail message) :=
  fun _ same => ⟨rfl, rfl, same⟩

theorem Performs.bind {x : Program C R α} {effect : Effect σ α} {f : α → Program C R β} {rest : α → Effect σ β}
    (first : Performs react choice x effect) (following : ∀ value, Performs react choice (f value) (rest value)) :
    Performs react choice (x >>= f) (effect >>= rest) := by
  intro course same
  obtain ⟨result, world, still⟩ := first course same
  rw [execute_bind]
  rcases ran : x.execute react course with ⟨_ | value, after⟩
  · rw [ran] at result world still
    rw [Effect.bind_run_error ran, Effect.bind_run_error (t := after.world) (Prod.ext result.symm world.symm)]
    exact ⟨rfl, rfl, still⟩
  · rw [ran] at result world still
    rw [Effect.bind_run_ok ran, Effect.bind_run_ok (t := after.world) (Prod.ext result.symm world.symm)]
    exact following value after still

theorem Performs.attempt {x : Program C R α} {effect : Effect σ α} (performs : Performs react choice x effect) :
    Performs react choice x.attempt effect.attempt := by
  intro course same
  obtain ⟨result, world, still⟩ := performs course same
  rw [execute_attempt]
  exact ⟨congrArg Except.ok result, world, still⟩

theorem Performs.withContext {x : Program C R α} {effect : Effect σ α} (message : String)
    (performs : Performs react choice x effect) :
    Performs react choice (x.withContext message) (effect.context message) := by
  intro course same
  obtain ⟨result, world, still⟩ := performs course same
  rw [execute_withContext]
  rcases ran : x.execute react course with ⟨_ | value, after⟩
  · rw [ran] at result world still
    rw [Effect.context_run_error ran, Effect.context_run_error (t := after.world) (Prod.ext result.symm world.symm)]
    exact ⟨rfl, rfl, still⟩
  · rw [ran] at result world still
    rw [Effect.context_run_ok ran, Effect.context_run_ok (t := after.world) (Prod.ext result.symm world.symm)]
    exact ⟨rfl, rfl, still⟩

end Performs
end SkyDaemon.Program
