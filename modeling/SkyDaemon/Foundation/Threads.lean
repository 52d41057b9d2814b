import SkyDaemon.Foundation.Program

/-! Programs that run side by side. A thread remembers what it was started for and
every exchange so far, so what its program promises about the next call holds in any
interleaving. -/
namespace SkyDaemon
open Program

structure Thread (ι C : Type) (R : C → Type) (α : Type) where
  origin : ι
  history : List (Exchange C R)
  rest : Program C R α

namespace Thread
variable {ι C α : Type} {R : C → Type}

def spawn (program : ι → Program C R α) (origin : ι) : Thread ι C R α := ⟨origin, [], program origin⟩

/-- The thread after its next call was answered. -/
def resume (thread : Thread ι C R α) (call : C) (answer : R call) (rest : Program C R α) :
    Thread ι C R α :=
  ⟨thread.origin, thread.history ++ [⟨call, answer⟩], rest⟩

/-- Whatever the thread still calls is allowed by the rule for what it was started for. -/
def Conducts (calls : ι → List (Exchange C R) → C → Prop) (thread : Thread ι C R α) : Prop :=
  thread.rest.Meets (calls thread.origin) (fun _ _ => True) thread.history

variable {calls : ι → List (Exchange C R) → C → Prop} {thread : Thread ι C R α}

theorem Conducts.next {call : C} {next : R call → Program C R α} (conducts : thread.Conducts calls)
    (waiting : thread.rest = .call call next) : calls thread.origin thread.history call := by
  unfold Conducts at conducts
  rw [waiting] at conducts
  exact conducts.1

theorem Conducts.resume {call : C} {next : R call → Program C R α} (conducts : thread.Conducts calls)
    (waiting : thread.rest = .call call next) (answer : R call) :
    (thread.resume call answer (next answer)).Conducts calls := by
  unfold Conducts at conducts
  rw [waiting] at conducts
  exact conducts.2 answer

end Thread
end SkyDaemon
