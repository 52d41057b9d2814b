import SkyDaemon.Foundation.Pool
import Mathlib.Data.List.Count

/-! Calls that come in pairs. The answer to one call can put a thread in debt, and the debt
is paid by its very next call, so in any interleaving the debts are counted by what the
threads are about to do. -/
namespace SkyDaemon
open Program

namespace Program
variable {C α β : Type} {R : C → Type} (due : C → Bool) (owes : (c : C) → R c → Bool)

/-- A due call is made right after an answer that asks for it, and nowhere else. -/
def Pays : Bool → Program C R α → Prop
  | owing, .done _ => owing = false
  | owing, .fail _ => owing = false
  | owing, .call c next => owing = due c ∧ ∀ answer, (next answer).Pays (owes c answer)

/-- The next call is a due one. -/
def pending : Program C R α → Bool
  | .call c _ => due c
  | _ => false

variable {due owes} {owing : Bool}

theorem Pays.pending {program : Program C R α} (pays : program.Pays due owes owing) : program.pending due = owing := by
  cases program with
  | done value => exact Eq.symm pays
  | fail message => exact Eq.symm pays
  | call c next => exact pays.1.symm

theorem Pays.bind {x : Program C R α} {f : α → Program C R β} (first : x.Pays due owes owing)
    (rest : ∀ value, (f value).Pays due owes false) : (x >>= f).Pays due owes owing := by
  induction x generalizing owing with
  | done value =>
    cases first
    exact rest value
  | fail message => exact first
  | call c next ih => exact ⟨first.1, fun answer => ih answer (first.2 answer)⟩

end Program

namespace Pool
variable {σ χ ι C α : Type} {R : C → Type} {react : Reaction σ χ C R} {program : ι → Program C R α}
  {due : C → Bool} {owes : (c : C) → R c → Bool} {pool : Pool σ ι C R α}

/-- Every thread pays what it owes. -/
def Solvent (due : C → Bool) (owes : (c : C) → R c → Bool) (pool : Pool σ ι C R α) : Prop :=
  ∀ thread ∈ pool.threads, ∃ owing, thread.rest.Pays due owes owing

def debts (due : C → Bool) (pool : Pool σ ι C R α) : Nat := pool.threads.countP fun thread => thread.rest.pending due

theorem Solvent.spawn (solvent : pool.Solvent due owes) {origin : ι} (pays : (program origin).Pays due owes false) :
    (pool.spawn program origin).Solvent due owes ∧ (pool.spawn program origin).debts due = pool.debts due := by
  constructor
  · exact forall_spawn solvent ⟨false, pays⟩
  · have clear : (Thread.spawn program origin).rest.pending due = false := pays.pending
    simp [debts, Pool.spawn, List.countP_append, clear]

/-- An answered call pays its debt, and its answer may make another. -/
theorem Solvent.resume {index : Nat} {choice : χ} {thread : Thread ι C R α} {c : C} {next : R c → Program C R α}
    (solvent : pool.Solvent due owes) (found : pool.threads[index]? = some thread)
    (waiting : thread.rest = .call c next) :
    (pool.resume react index choice thread c next).Solvent due owes ∧
      (pool.resume react index choice thread c next).debts due + (due c).toNat =
        pool.debts due + (owes c (react pool.world choice c).1).toNat := by
  obtain ⟨owing, pays⟩ := solvent thread (List.mem_of_getElem? found)
  rw [waiting] at pays
  have after := pays.2 (react pool.world choice c).1
  constructor
  · exact forall_resume solvent ⟨_, after⟩
  · obtain ⟨bound, here⟩ := List.getElem?_eq_some_iff.mp found
    have was : thread.rest.pending due = due c := by rw [waiting]; rfl
    have counted : (due c).toNat ≤ pool.debts due := by
      cases owed : due c with
      | false => exact Nat.zero_le _
      | true => exact List.countP_pos_iff.mpr ⟨thread, List.mem_of_getElem? found, was.trans owed⟩
    have becomes : (pool.resume react index choice thread c next).debts due =
        pool.debts due - (due c).toNat + (owes c (react pool.world choice c).1).toNat := by
      rw [debts, Pool.resume, List.countP_set bound, here, was, Thread.resume, after.pending, debts]
      cases due c <;> cases owes c (react pool.world choice c).1 <;> rfl
    omega

/-- Once every thread has ended, nothing is owed. -/
theorem debts_ended (ended : ∀ thread ∈ pool.threads, ∀ c next, thread.rest ≠ .call c next) : pool.debts due = 0 := by
  refine List.countP_eq_zero.mpr fun thread member => ?_
  cases rest : thread.rest with
  | done value => simp [pending]
  | fail message => simp [pending]
  | call c next => exact absurd rest (ended thread member c next)

end Pool
end SkyDaemon
