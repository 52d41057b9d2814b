/-! Labeled runs of a step relation, from any state. The labels are the choices
of the environment: messages, clock readings, completions and failures. -/
namespace SkyDaemon.Transition
variable {S L : Type}

inductive Run (step : S → L → S → Prop) : S → List L → S → Prop where
  | refl (s) : Run step s [] s
  | next : step s label t → Run step t labels u → Run step s (label :: labels) u

/-- The steps whose source state and label meet a condition. -/
def Guarded (step : S → L → S → Prop) (condition : S → L → Prop) (s : S) (label : L) (t : S) : Prop :=
  step s label t ∧ condition s label

namespace Run
variable {step : S → L → S → Prop}

theorem single (first : step s label t) : Run step s [label] t := .next first (.refl _)

theorem trans (first : Run step s labels t) (second : Run step t labels' u) :
    Run step s (labels ++ labels') u := by
  induction first with
  | refl => exact second
  | next head _ ih => exact .next head (ih second)

theorem invariant {P : S → Prop} (preserves : ∀ {s label t}, P s → step s label t → P t)
    (run : Run step s labels t) (initial : P s) : P t := by
  induction run with
  | refl => exact initial
  | next head _ ih => exact ih (preserves initial head)

theorem mono {other : S → L → S → Prop} (weaker : ∀ {s label t}, step s label t → other s label t)
    (run : Run step s labels t) : Run other s labels t := by
  induction run with
  | refl => exact .refl _
  | next head _ ih => exact .next (weaker head) ih

/-- The run of a step function through its labels. -/
theorem of_foldlM {next : S → L → Option S} (folded : labels.foldlM next s = some t) :
    Run (fun s label t => next s label = some t) s labels t := by
  induction labels generalizing s with
  | nil =>
    cases folded
    exact .refl _
  | cons label labels ih =>
    obtain ⟨mid, first, rest⟩ := Option.bind_eq_some_iff.mp folded
    exact .next first (ih rest)

/-- The same with a check before each step. -/
theorem of_foldlM_guarded {next : S → L → Option S} {check : S → L → Bool}
    (folded : labels.foldlM (fun s label => if check s label then next s label else none) s = some t) :
    Run (Guarded (fun s label t => next s label = some t) fun s label => check s label = true) s labels t := by
  apply mono _ (of_foldlM folded)
  intro s label t stepped
  split at stepped
  · exact ⟨stepped, ‹_›⟩
  · contradiction

end Run
end SkyDaemon.Transition
