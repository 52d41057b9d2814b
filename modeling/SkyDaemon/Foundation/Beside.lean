import SkyDaemon.Foundation.Program

/-! Two interfaces side by side: a program of either one as a program of both. -/
namespace SkyDaemon.Program
variable {C D α : Type} {R : C → Type} {S : D → Type}

/-- A sequence that begins with a call. -/
theorem Ran.of_call_bind {c : C} {f : R c → Program C R α} {made : List (Exchange C R)} {result : Except String α}
    (ran : ((.call c .done : Program C R (R c)) >>= f).Ran made result) :
    ∃ answer rest, made = ⟨c, answer⟩ :: rest ∧ (f answer).Ran rest result := by
  rcases ran.of_bind with ⟨message, failed, -⟩ | ⟨value, first, rest, rfl, ok, following⟩
  · cases failed with
    | call failed => cases failed
  · cases ok with
    | call ended =>
      cases ended
      exact ⟨value, rest, rfl, following⟩

def left : Program C R α → Program (C ⊕ D) (Sum.elim R S) α
  | .done value => .done value
  | .fail message => .fail message
  | .call c next => .call (.inl c) fun answer => (next answer).left

def right : Program D S α → Program (C ⊕ D) (Sum.elim R S) α
  | .done value => .done value
  | .fail message => .fail message
  | .call d next => .call (.inr d) fun answer => (next answer).right

def leftExchange (exchange : Exchange C R) : Exchange (C ⊕ D) (Sum.elim R S) := ⟨.inl exchange.1, exchange.2⟩

def rightExchange (exchange : Exchange D S) : Exchange (C ⊕ D) (Sum.elim R S) := ⟨.inr exchange.1, exchange.2⟩

theorem Ran.of_left {program : Program C R α} {made : List (Exchange (C ⊕ D) (Sum.elim R S))}
    {result : Except String α} (ran : program.left.Ran made result) :
    ∃ own, made = own.map leftExchange ∧ program.Ran own result := by
  induction program generalizing made with
  | done value =>
    cases ran
    exact ⟨[], rfl, .done value⟩
  | fail message =>
    cases ran
    exact ⟨[], rfl, .fail message⟩
  | call c next ih =>
    cases ran with
    | @call _ _ answer _ _ following =>
      obtain ⟨own, rfl, ran⟩ := ih answer following
      exact ⟨⟨c, answer⟩ :: own, rfl, .call ran⟩

theorem Ran.of_right {program : Program D S α} {made : List (Exchange (C ⊕ D) (Sum.elim R S))}
    {result : Except String α} (ran : program.right.Ran made result) :
    ∃ own, made = own.map rightExchange ∧ program.Ran own result := by
  induction program generalizing made with
  | done value =>
    cases ran
    exact ⟨[], rfl, .done value⟩
  | fail message =>
    cases ran
    exact ⟨[], rfl, .fail message⟩
  | call d next ih =>
    cases ran with
    | @call _ _ answer _ _ following =>
      obtain ⟨own, rfl, ran⟩ := ih answer following
      exact ⟨⟨d, answer⟩ :: own, rfl, .call ran⟩

end SkyDaemon.Program
