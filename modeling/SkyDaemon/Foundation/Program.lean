import Mathlib.Data.List.Basic

/-! Programs as trees of calls to their environment. A node is one call, and the
program continues with whatever answer comes back; between two calls anything may
happen elsewhere. An error ends the program with its message. -/
namespace SkyDaemon

inductive Program (C : Type) (R : C → Type) (α : Type) where
  | done (value : α)
  | fail (message : String)
  | call (c : C) (next : R c → Program C R α)

namespace Program
variable {C : Type} {R : C → Type} {α β ε : Type}

def bind : Program C R α → (α → Program C R β) → Program C R β
  | .done value, f => f value
  | .fail message, _ => .fail message
  | .call c next, f => .call c fun answer => (next answer).bind f

instance : Monad (Program C R) where
  pure := done
  bind := bind

@[simp] theorem done_bind (value : α) (f : α → Program C R β) :
    (done value >>= f : Program C R β) = f value := rfl

@[simp] theorem fail_bind (message : String) (f : α → Program C R β) :
    (fail message >>= f : Program C R β) = fail message := rfl

@[simp] theorem call_bind (c : C) (next : R c → Program C R α) (f : α → Program C R β) :
    (call c next >>= f : Program C R β) = call c fun answer => next answer >>= f := rfl

def perform (c : C) : Program C R (R c) := .call c .done

/-- Rust's `?` on a result with its own error text. -/
def ofExcept : Except String α → Program C R α
  | .ok value => .done value
  | .error message => .fail message

/-- `?` after `.context(message)`: only the context is shown. -/
def context (message : String) : Except ε α → Program C R α
  | .ok value => .done value
  | .error _ => .fail message

def required (message : String) : Option α → Program C R α
  | some value => .done value
  | none => .fail message

@[simp] theorem required_some (message : String) (value : α) :
    (required message (some value) : Program C R α) = done value := rfl

@[simp] theorem required_none (message : String) :
    (required message none : Program C R α) = fail message := rfl

/-- The program under `.context(message)`. -/
def withContext (message : String) : Program C R α → Program C R α
  | .done value => .done value
  | .fail _ => .fail message
  | .call c next => .call c fun answer => (next answer).withContext message

/-- The result of the program as a value. -/
def attempt : Program C R α → Program C R (Except String α)
  | .done value => .done (.ok value)
  | .fail message => .done (.error message)
  | .call c next => .call c fun answer => (next answer).attempt

/-- The program with every call carried out by a program of its own. -/
def translate {D : Type} {S : D → Type} (carry : (c : C) → Program D S (R c)) :
    Program C R α → Program D S α
  | .done value => .done value
  | .fail message => .fail message
  | .call c next => (carry c).bind fun answer => (next answer).translate carry

/-- A call together with the answer it got. -/
abbrev Exchange (C : Type) (R : C → Type) := (c : C) × R c

/-- One undisturbed run; an answer may depend on everything before it. -/
def transcript (oracle : List (Exchange C R) → (c : C) → R c) :
    Program C R α → List (Exchange C R) → List (Exchange C R) × Except String α
  | .done value, history => (history, .ok value)
  | .fail message, history => (history, .error message)
  | .call c next, history =>
      (next (oracle history c)).transcript oracle (history ++ [⟨c, oracle history c⟩])

/-- Every call the program can make, whatever is answered to the earlier ones. -/
def All (P : C → Prop) : Program C R α → Prop
  | .done _ | .fail _ => True
  | .call c next => P c ∧ ∀ answer, (next answer).All P

/-- Some run of the program makes the call. -/
inductive Makes : Program C R α → C → Prop where
  | here {c : C} {next : R c → Program C R α} : Makes (.call c next) c
  | later {c c' : C} {next : R c' → Program C R α} (answer : R c') :
      Makes (next answer) c → Makes (.call c' next) c

theorem all_iff_makes {P : C → Prop} {program : Program C R α} :
    program.All P ↔ ∀ c, program.Makes c → P c := by
  constructor
  · intro all c makes
    induction makes with
    | here => exact all.1
    | later answer _ ih => exact ih (all.2 answer)
  · intro makes
    induction program with
    | done value => trivial
    | fail message => trivial
    | call c next ih =>
      refine ⟨makes c .here, fun answer => ih answer fun c' made => makes c' (.later answer made)⟩

@[simp] theorem all_done {P : C → Prop} (value : α) : (done value : Program C R α).All P := trivial

@[simp] theorem all_pure {P : C → Prop} (value : α) : (pure value : Program C R α).All P := trivial

@[simp] theorem all_fail {P : C → Prop} (message : String) :
    (fail message : Program C R α).All P := trivial

@[simp] theorem all_perform {P : C → Prop} (c : C) : (perform c : Program C R (R c)).All P ↔ P c :=
  ⟨And.left, fun holds => ⟨holds, fun _ => trivial⟩⟩

@[simp] theorem all_ofExcept {P : C → Prop} (result : Except String α) :
    (ofExcept result : Program C R α).All P := by
  cases result <;> trivial

@[simp] theorem all_context {P : C → Prop} (message : String) (result : Except ε α) :
    (context message result : Program C R α).All P := by
  cases result <;> trivial

@[simp] theorem all_required {P : C → Prop} (message : String) (value : Option α) :
    (required message value : Program C R α).All P := by
  cases value <;> trivial

@[simp] theorem all_withContext {P : C → Prop} (message : String) (x : Program C R α) :
    (x.withContext message).All P ↔ x.All P := by
  induction x with
  | done value => rfl
  | fail text => rfl
  | call c next ih => simp only [withContext, All, ih]

@[simp] theorem all_attempt {P : C → Prop} (x : Program C R α) : x.attempt.All P ↔ x.All P := by
  induction x with
  | done value => rfl
  | fail text => rfl
  | call c next ih => simp only [attempt, All, ih]

theorem all_true (program : Program C R α) : program.All fun _ => True := by
  induction program with
  | done value => trivial
  | fail message => trivial
  | call c next ih => exact ⟨trivial, ih⟩

theorem All.mono {P Q : C → Prop} {program : Program C R α} (all : program.All P)
    (weaker : ∀ c, P c → Q c) : program.All Q := by
  induction program with
  | done value => trivial
  | fail message => trivial
  | call c next ih => exact ⟨weaker c all.1, fun answer => ih answer (all.2 answer)⟩

theorem All.and {P Q : C → Prop} {program : Program C R α} (first : program.All P) (second : program.All Q) :
    program.All fun c => P c ∧ Q c := by
  induction program with
  | done value => trivial
  | fail message => trivial
  | call c next ih => exact ⟨⟨first.1, second.1⟩, fun answer => ih answer (first.2 answer) (second.2 answer)⟩

theorem All.bind {P : C → Prop} {x : Program C R α} {f : α → Program C R β} (first : x.All P)
    (rest : ∀ value, (f value).All P) : (x >>= f).All P := by
  induction x with
  | done value => exact rest value
  | fail message => trivial
  | call c next ih => exact ⟨first.1, fun answer => ih answer (first.2 answer)⟩

theorem All.of_bind {P : C → Prop} {x : Program C R α} {f : α → Program C R β}
    (all : (x >>= f).All P) : x.All P := by
  induction x with
  | done value => trivial
  | fail message => trivial
  | call c next ih => exact ⟨all.1, fun answer => ih answer (all.2 answer)⟩

/-- After `history`, every call meets `calls` of what was answered before it, and the
value that the program ends with, if it does, meets `post`. -/
def Meets (calls : List (Exchange C R) → C → Prop) (post : List (Exchange C R) → α → Prop) :
    Program C R α → List (Exchange C R) → Prop
  | .done value, history => post history value
  | .fail _, _ => True
  | .call c next, history =>
      calls history c ∧ ∀ answer, (next answer).Meets calls post (history ++ [⟨c, answer⟩])

section Meets
variable {calls : List (Exchange C R) → C → Prop} {post : List (Exchange C R) → α → Prop}
  {history : List (Exchange C R)}

theorem Meets.bind {mid : List (Exchange C R) → α → Prop} {post : List (Exchange C R) → β → Prop}
    {x : Program C R α} {f : α → Program C R β} (first : x.Meets calls mid history)
    (rest : ∀ later value, mid later value → (f value).Meets calls post later) :
    (x >>= f).Meets calls post history := by
  induction x generalizing history with
  | done value => exact rest history value first
  | fail message => trivial
  | call c next ih => exact ⟨first.1, fun answer => ih answer (first.2 answer)⟩

theorem Meets.mono {calls' : List (Exchange C R) → C → Prop} {post' : List (Exchange C R) → α → Prop}
    {x : Program C R α} (meets : x.Meets calls post history) (allowed : ∀ later c, calls later c → calls' later c)
    (weaker : ∀ later value, post later value → post' later value) : x.Meets calls' post' history := by
  induction x generalizing history with
  | done value => exact weaker history value meets
  | fail message => trivial
  | call c next ih => exact ⟨allowed history c meets.1, fun answer => ih answer (meets.2 answer)⟩

theorem Meets.weaken {post' : List (Exchange C R) → α → Prop} {x : Program C R α}
    (meets : x.Meets calls post history) (weaker : ∀ later value, post later value → post' later value) :
    x.Meets calls post' history :=
  meets.mono (fun _ _ allowed => allowed) weaker

theorem Meets.ofExcept {result : Except String α} (ok : ∀ value, result = .ok value → post history value) :
    (Program.ofExcept result : Program C R α).Meets calls post history := by
  cases result with
  | error message => trivial
  | ok value => exact ok value rfl

theorem Meets.required {message : String} {value : Option α}
    (some : ∀ v, value = some v → post history v) :
    (Program.required message value : Program C R α).Meets calls post history := by
  cases value with
  | none => trivial
  | some v => exact some v rfl

/-- What no further exchange can undo still holds after a program that may fail. -/
theorem Meets.attempt {kept : List (Exchange C R) → Prop} {x : Program C R α}
    (grows : ∀ history exchange, kept history → kept (history ++ [exchange]))
    (before : kept history) (meets : x.Meets calls post history) :
    x.attempt.Meets calls
      (fun later result => kept later ∧ ∀ value, result = .ok value → post later value) history := by
  induction x generalizing history with
  | done value =>
    refine ⟨before, ?_⟩
    rintro value ⟨⟩
    exact meets
  | fail message => exact ⟨before, fun _ => nofun⟩
  | call c next ih => exact ⟨meets.1, fun answer => ih answer (grows _ _ before) (meets.2 answer)⟩

/-- A sequence under `attempt` ends with the first error or goes on. -/
theorem Meets.attempt_bind {x : Program C R α} {f : α → Program C R β}
    {post : List (Exchange C R) → Except String β → Prop}
    (first : x.attempt.Meets calls (fun later result =>
      match result with
      | .ok value => (f value).attempt.Meets calls post later
      | .error message => post later (.error message)) history) :
    (x >>= f).attempt.Meets calls post history := by
  induction x generalizing history with
  | done value => exact first
  | fail message => exact first
  | call c next ih => exact ⟨first.1, fun answer => ih answer (first.2 answer)⟩

/-- A program without history-dependent calls meets any rule that allows its calls. -/
theorem All.meets {P : C → Prop} {program : Program C R α} (all : program.All P)
    (allowed : ∀ later c, (∀ exchange ∈ later, P exchange.1) → P c → calls later c)
    (clean : ∀ exchange ∈ history, P exchange.1) :
    program.Meets calls (fun later _ => ∀ exchange ∈ later, P exchange.1) history := by
  induction program generalizing history with
  | done value => exact clean
  | fail message => trivial
  | call c next ih =>
    refine ⟨allowed history c clean all.1, fun answer => ih answer (all.2 answer) ?_⟩
    intro exchange member
    rcases List.mem_append.mp member with earlier | last
    · exact clean exchange earlier
    · cases List.mem_singleton.mp last
      exact all.1

theorem transcript_extends (oracle : List (Exchange C R) → (c : C) → R c) (program : Program C R α)
    (history : List (Exchange C R)) : history <+: (program.transcript oracle history).1 := by
  induction program generalizing history with
  | done value => exact List.prefix_rfl
  | fail message => exact List.prefix_rfl
  | call c next ih => exact (List.prefix_append history _).trans (ih _ _)

theorem Meets.transcript {oracle : List (Exchange C R) → (c : C) → R c} {program : Program C R α}
    {before after : List (Exchange C R)} {c : C} {answer : R c}
    (meets : program.Meets calls post history) (later : history.length ≤ before.length)
    (made : (program.transcript oracle history).1 = before ++ ⟨c, answer⟩ :: after) :
    calls before c := by
  induction program generalizing history with
  | done value =>
    have lengths := congrArg List.length made
    simp only [Program.transcript, List.length_append, List.length_cons] at lengths
    omega
  | fail message =>
    have lengths := congrArg List.length made
    simp only [Program.transcript, List.length_append, List.length_cons] at lengths
    omega
  | call c' next ih =>
    by_cases here : before.length = history.length
    · have extends' := transcript_extends oracle (next (oracle history c'))
        (history ++ [⟨c', oracle history c'⟩])
      rw [Program.transcript] at made
      rw [made] at extends'
      obtain ⟨rest, whole⟩ := extends'
      rw [List.append_assoc] at whole
      obtain ⟨rfl, same⟩ := List.append_inj whole here.symm
      cases (List.cons.inj same).1
      exact meets.1
    · apply ih _ (meets.2 _) _ made
      rw [List.length_append, List.length_singleton]
      omega

end Meets

/-! ## Runs -/

/-- A run of the program: what was asked and answered, and the result. -/
inductive Ran : Program C R α → List (Exchange C R) → Except String α → Prop where
  | done (value : α) : Ran (.done value) [] (.ok value)
  | fail (message : String) : Ran (.fail message) [] (.error message)
  | call {c : C} {next : R c → Program C R α} {answer : R c} {rest : List (Exchange C R)}
      {result : Except String α} (following : Ran (next answer) rest result) :
      Ran (.call c next) (⟨c, answer⟩ :: rest) result

/-- A run that ends with a value ends in the postcondition. -/
theorem Meets.ran {calls : List (Exchange C R) → C → Prop} {post : List (Exchange C R) → α → Prop}
    {program : Program C R α} {history made : List (Exchange C R)} (meets : program.Meets calls post history)
    (ran : program.Ran made (.ok value)) : post (history ++ made) value := by
  induction program generalizing history made with
  | done _ =>
    cases ran
    rw [List.append_nil]
    exact meets
  | fail message => cases ran
  | call c next ih =>
    cases ran with
    | @call _ _ answer rest _ following =>
      have ended := ih answer (meets.2 answer) following
      rwa [List.append_assoc] at ended

/-- Whatever is answered, the program comes to an end. -/
theorem transcript_ran (oracle : List (Exchange C R) → (c : C) → R c) (program : Program C R α)
    (history : List (Exchange C R)) :
    ∃ made, (program.transcript oracle history).1 = history ++ made ∧
      program.Ran made (program.transcript oracle history).2 := by
  induction program generalizing history with
  | done value => exact ⟨[], (List.append_nil _).symm, .done value⟩
  | fail message => exact ⟨[], (List.append_nil _).symm, .fail message⟩
  | call c next ih =>
    obtain ⟨made, whole, ran⟩ := ih (oracle history c) (history ++ [⟨c, oracle history c⟩])
    refine ⟨⟨c, oracle history c⟩ :: made, ?_, .call ran⟩
    rw [transcript, whole, List.append_assoc]
    rfl

/-- Every answer of the run is the oracle's. -/
theorem transcript_answers (oracle : List (Exchange C R) → (c : C) → R c) (program : Program C R α)
    {history : List (Exchange C R)} (earlier : ∀ exchange ∈ history, ∃ before, exchange.2 = oracle before exchange.1) :
    ∀ exchange ∈ (program.transcript oracle history).1, ∃ before, exchange.2 = oracle before exchange.1 := by
  induction program generalizing history with
  | done value => exact earlier
  | fail message => exact earlier
  | call c next ih =>
    apply ih
    intro exchange member
    rcases List.mem_append.mp member with old | new
    · exact earlier exchange old
    · rw [List.mem_singleton.mp new]
      exact ⟨history, rfl⟩

/-- The run from the beginning, with the oracle's answers. -/
theorem transcript_answered (oracle : List (Exchange C R) → (c : C) → R c) (program : Program C R α) :
    ∃ made, program.Ran made (program.transcript oracle []).2 ∧
      ∀ exchange ∈ made, ∃ before, exchange.2 = oracle before exchange.1 := by
  obtain ⟨made, whole, ran⟩ := transcript_ran oracle program []
  refine ⟨made, ran, ?_⟩
  have answers : ∀ exchange ∈ (program.transcript oracle []).1, ∃ before, exchange.2 = oracle before exchange.1 :=
    transcript_answers oracle program (by simp)
  rw [whole, List.nil_append] at answers
  exact answers

/-- A sequence runs its first part, and on success the second. -/
theorem Ran.of_bind {x : Program C R α} {f : α → Program C R β} {made : List (Exchange C R)}
    {result : Except String β} (ran : (x >>= f).Ran made result) :
    (∃ message, x.Ran made (.error message) ∧ result = .error message) ∨
    ∃ value first rest, made = first ++ rest ∧ x.Ran first (.ok value) ∧ (f value).Ran rest result := by
  induction x generalizing made with
  | done value => exact .inr ⟨value, [], made, rfl, .done value, ran⟩
  | fail message =>
    cases ran
    exact .inl ⟨message, .fail message, rfl⟩
  | call c next ih =>
    cases ran with
    | call following =>
      rcases ih _ following with ⟨message, failed, rfl⟩ | ⟨value, first, rest, rfl, ok, ran⟩
      · exact .inl ⟨message, .call failed, rfl⟩
      · exact .inr ⟨value, _ :: first, rest, rfl, .call ok, ran⟩

theorem Ran.of_ofExcept {outcome result : Except String α} {made : List (Exchange C R)}
    (ran : (ofExcept outcome : Program C R α).Ran made result) : made = [] ∧ result = outcome := by
  cases outcome <;> cases ran <;> exact ⟨rfl, rfl⟩

theorem Ran.of_attempt {x : Program C R α} {made : List (Exchange C R)} {result : Except String (Except String α)}
    (ran : x.attempt.Ran made result) : ∃ outcome, result = .ok outcome ∧ x.Ran made outcome := by
  induction x generalizing made with
  | done value =>
    cases ran
    exact ⟨.ok value, rfl, .done value⟩
  | fail message =>
    cases ran
    exact ⟨.error message, rfl, .fail message⟩
  | call c next ih =>
    cases ran with
    | call following =>
      obtain ⟨outcome, rfl, ran⟩ := ih _ following
      exact ⟨outcome, rfl, .call ran⟩

/-- An attempt always has an outcome to go on from. -/
theorem Ran.of_attempt_bind {x : Program C R α} {f : Except String α → Program C R β} {made : List (Exchange C R)}
    {result : Except String β} (ran : (x.attempt >>= f).Ran made result) :
    ∃ outcome first rest, made = first ++ rest ∧ x.Ran first outcome ∧ (f outcome).Ran rest result := by
  rcases ran.of_bind with ⟨message, failed, -⟩ | ⟨outcome, first, rest, rfl, attempted, following⟩
  · obtain ⟨_, impossible, -⟩ := failed.of_attempt
    cases impossible
  · obtain ⟨_, same, ran⟩ := attempted.of_attempt
    cases same
    exact ⟨_, first, rest, rfl, ran, following⟩

/-! ## Programs that commit last -/

/-- Whatever is answered, the program ends with a value. -/
def Unfailing : Program C R α → Prop
  | .done _ => True
  | .fail _ => False
  | .call _ next => ∀ answer, (next answer).Unfailing

/-- A call outside `P` is made only when the program can no longer fail. -/
def CommitsLast (P : C → Prop) : Program C R α → Prop
  | .done _ | .fail _ => True
  | .call c next => (P c ∧ ∀ answer, (next answer).CommitsLast P) ∨ ∀ answer, (next answer).Unfailing

theorem Unfailing.commitsLast {P : C → Prop} {program : Program C R α} (unfailing : program.Unfailing) :
    program.CommitsLast P := by
  cases program with
  | done value => trivial
  | fail message => trivial
  | call c next => exact .inr unfailing

theorem Unfailing.bind {x : Program C R α} {f : α → Program C R β} (first : x.Unfailing)
    (rest : ∀ value, (f value).Unfailing) : (x >>= f).Unfailing := by
  induction x with
  | done value => exact rest value
  | fail message => exact first.elim
  | call c next ih => exact fun answer => ih answer (first answer)

theorem All.commitsLast_bind {P : C → Prop} {x : Program C R α} {f : α → Program C R β} (first : x.All P)
    (rest : ∀ value, (f value).CommitsLast P) : (x >>= f).CommitsLast P := by
  induction x with
  | done value => exact rest value
  | fail message => trivial
  | call c next ih => exact .inl ⟨first.1, fun answer => ih answer (first.2 answer)⟩

theorem All.commitsLast {P : C → Prop} {program : Program C R α} (all : program.All P) :
    program.CommitsLast P := by
  induction program with
  | done value => trivial
  | fail message => trivial
  | call c next ih => exact .inl ⟨all.1, fun answer => ih answer (all.2 answer)⟩

theorem CommitsLast.bind_unfailing {P : C → Prop} {x : Program C R α} {f : α → Program C R β}
    (first : x.CommitsLast P) (rest : ∀ value, (f value).Unfailing) : (x >>= f).CommitsLast P := by
  induction x with
  | done value => exact (rest value).commitsLast
  | fail message => trivial
  | call c next ih =>
    rcases first with ⟨allowed, following⟩ | certain
    · exact .inl ⟨allowed, fun answer => ih answer (following answer)⟩
    · exact .inr fun answer => (certain answer).bind rest

end Program
end SkyDaemon
