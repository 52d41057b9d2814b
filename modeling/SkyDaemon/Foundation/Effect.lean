/-! Fallible computations over an explicit state. A failure keeps the effects made
before it, as a Rust function that returns early does. -/
namespace SkyDaemon

def Effect (σ α : Type) := σ → Except String α × σ

namespace Effect

instance : Monad (Effect σ) where
  pure a := fun s => (.ok a, s)
  bind x f := fun s => match x s with
    | (.ok a, t) => f a t
    | (.error e, t) => (.error e, t)

def fail (message : String) : Effect σ α := fun s => (.error message, s)

def lift (result : Except String α) : Effect σ α := fun s => (result, s)

/-- The outermost context is what the error's `to_string` shows. -/
def context (message : String) (x : Effect σ α) : Effect σ α := fun s =>
  match x s with
  | (.ok a, t) => (.ok a, t)
  | (.error _, t) => (.error message, t)

/-- Run to a result that the caller inspects or discards, without returning early. -/
def attempt (x : Effect σ α) : Effect σ (Except String α) := fun s => (.ok (x s).1, (x s).2)

@[simp] theorem pure_run (a : α) (s : σ) : (pure a : Effect σ α) s = (.ok a, s) := rfl

@[simp] theorem fail_run (message : String) (s : σ) :
    (fail message : Effect σ α) s = (.error message, s) := rfl

@[simp] theorem lift_run (result : Except String α) (s : σ) :
    (lift result : Effect σ α) s = (result, s) := rfl

@[simp] theorem attempt_run (x : Effect σ α) (s : σ) :
    x.attempt s = (.ok (x s).1, (x s).2) := rfl

theorem bind_run_ok {x : Effect σ α} {f : α → Effect σ β} (ran : x s = (.ok a, t)) :
    (x >>= f) s = f a t := by
  change (match x s with | (.ok a, t) => f a t | (.error e, t) => (.error e, t)) = _
  rw [ran]

theorem bind_run_error {x : Effect σ α} {f : α → Effect σ β} (ran : x s = (.error e, t)) :
    (x >>= f) s = (.error e, t) := by
  change (match x s with | (.ok a, t) => f a t | (.error e, t) => (.error e, t)) = _
  rw [ran]

theorem context_run_ok {x : Effect σ α} (ran : x s = (.ok a, t)) :
    x.context message s = (.ok a, t) := by
  simp only [context, ran]

theorem context_run_error {x : Effect σ α} (ran : x s = (.error e, t)) :
    x.context message s = (.error message, t) := by
  simp only [context, ran]

/-- A sequence succeeds only through the success of its first part. -/
theorem bind_run_ok_iff {x : Effect σ α} {f : α → Effect σ β} :
    (x >>= f) s = (.ok b, t) ↔ ∃ a mid, x s = (.ok a, mid) ∧ f a mid = (.ok b, t) := by
  constructor
  · intro ran
    rcases first : x s with ⟨_ | a, mid⟩
    · rw [bind_run_error first] at ran
      cases ran
    · rw [bind_run_ok first] at ran
      exact ⟨a, mid, rfl, ran⟩
  · rintro ⟨a, mid, first, rest⟩
    rw [bind_run_ok first, rest]

theorem context_run_ok_iff {x : Effect σ α} : x.context message s = (.ok a, t) ↔ x s = (.ok a, t) := by
  constructor
  · intro ran
    rcases first : x s with ⟨_ | b, mid⟩
    · rw [context_run_error first] at ran
      cases ran
    · rw [context_run_ok first] at ran
      exact ran
  · exact context_run_ok

end Effect
end SkyDaemon
