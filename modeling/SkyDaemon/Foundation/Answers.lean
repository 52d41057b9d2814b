import SkyDaemon.Foundation.Interpret

/-! What a program ends with when the answers it gets keep to a rule. -/
namespace SkyDaemon.Program
variable {C : Type} {R : C → Type} {α β : Type}

/-- Calls that are allowed at any time. -/
theorem All.meets_always {P : C → Prop} {calls : List (Exchange C R) → C → Prop} {program : Program C R α}
    (all : program.All P) (allowed : ∀ history c, P c → calls history c) (history : List (Exchange C R)) :
    program.Meets calls (fun _ _ => True) history := by
  induction program generalizing history with
  | done value => trivial
  | fail message => trivial
  | call c next ih => exact ⟨allowed history c all.1, fun answer => ih answer (all.2 answer) _⟩

/-- What is known of the calls one by one, beside what they are in view of the history. -/
theorem Meets.and_all {P : C → Prop} {calls : List (Exchange C R) → C → Prop} {post : List (Exchange C R) → α → Prop}
    {program : Program C R α} {history : List (Exchange C R)} (meets : program.Meets calls post history)
    (all : program.All P) : program.Meets (fun later c => calls later c ∧ P c) post history := by
  induction program generalizing history with
  | done value => exact meets
  | fail message => trivial
  | call c next ih => exact ⟨⟨meets.1, all.1⟩, fun answer => ih answer (meets.2 answer) (all.2 answer)⟩

/-- As long as every answer is sound, the value that the program ends with meets `post`. -/
def Yields (sound : (c : C) → R c → Prop) (post : α → Prop) : Program C R α → Prop
  | .done value => post value
  | .fail _ => True
  | .call c next => ∀ answer, sound c answer → (next answer).Yields sound post

variable {sound : (c : C) → R c → Prop} {post : α → Prop}

theorem yields_pure {value : α} (meets : post value) : (pure value : Program C R α).Yields sound post := meets

theorem yields_fail (message : String) : (fail message : Program C R α).Yields sound post := trivial

theorem yields_perform (c : C) : (perform c : Program C R (R c)).Yields sound (sound c) := fun _ ok => ok

theorem yields_ofExcept {result : Except String α} (meets : ∀ value, result = .ok value → post value) :
    (ofExcept result : Program C R α).Yields sound post := by
  cases result with
  | error message => trivial
  | ok value => exact meets value rfl

theorem yields_context {ε : Type} {message : String} {result : Except ε α}
    (meets : ∀ value, result = .ok value → post value) :
    (context message result : Program C R α).Yields sound post := by
  cases result with
  | error error => trivial
  | ok value => exact meets value rfl

theorem yields_required {message : String} {value : Option α} (meets : ∀ v, value = some v → post v) :
    (required message value : Program C R α).Yields sound post := by
  cases value with
  | none => trivial
  | some v => exact meets v rfl

theorem Yields.bind {mid : α → Prop} {post : β → Prop} {x : Program C R α} {f : α → Program C R β}
    (first : x.Yields sound mid) (rest : ∀ value, mid value → (f value).Yields sound post) :
    (x >>= f).Yields sound post := by
  induction x with
  | done value => exact rest value first
  | fail message => trivial
  | call c next ih => exact fun answer ok => ih answer (first answer ok)

theorem yields_true (x : Program C R α) : x.Yields sound fun _ => True := by
  induction x with
  | done value => trivial
  | fail message => trivial
  | call c next ih => exact fun answer _ => ih answer

/-- What comes last decides alone when nothing is asked of what comes first. -/
theorem yields_bind_of_all {post : β → Prop} (x : Program C R α) {f : α → Program C R β}
    (rest : ∀ value, (f value).Yields sound post) : (x >>= f).Yields sound post :=
  (yields_true x).bind fun value _ => rest value

theorem Yields.withContext {x : Program C R α} (yields : x.Yields sound post) (message : String) :
    (x.withContext message).Yields sound post := by
  induction x with
  | done value => exact yields
  | fail _ => trivial
  | call c next ih => exact fun answer ok => ih answer (yields answer ok)

theorem Yields.ran {x : Program C R α} {made : List (Exchange C R)} {value : α} (yields : x.Yields sound post)
    (ran : x.Ran made (.ok value)) (answered : ∀ exchange ∈ made, sound exchange.1 exchange.2) : post value := by
  induction x generalizing made with
  | done _ =>
    cases ran
    exact yields
  | fail message => cases ran
  | call c next ih =>
    cases ran with
    | call following =>
      rw [List.forall_mem_cons] at answered
      exact ih _ (yields _ answered.1) following answered.2

end SkyDaemon.Program
