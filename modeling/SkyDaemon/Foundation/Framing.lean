import Mathlib.Data.List.Basic

/-! Readers that take complete items off the front of a growing buffer. If an item
that is there stays there when more input arrives, the items do not depend on how
the input was cut into pieces. -/
namespace SkyDaemon
variable {α β : Type}

structure Framing (α β : Type) where
  next : List α → Option (β × List α)
  shrinks : next buf = some (item, rest) → rest.length < buf.length
  stable : next buf = some (item, rest) → next (buf ++ more) = some (item, rest ++ more)

namespace Framing

def drainFuel (framing : Framing α β) : Nat → List α → List β × List α
  | 0, buf => ([], buf)
  | fuel + 1, buf => match framing.next buf with
      | none => ([], buf)
      | some (item, rest) =>
          (item :: (framing.drainFuel fuel rest).1, (framing.drainFuel fuel rest).2)

/-- Takes items until none is complete; what is left waits for more input. -/
def drain (framing : Framing α β) (buf : List α) : List β × List α :=
  framing.drainFuel buf.length buf

variable (framing : Framing α β)

/-- The loop runs once for each item, so the length of the buffer is fuel enough. -/
theorem induct {P : List α → Prop} (stuck : ∀ buf, framing.next buf = none → P buf)
    (step : ∀ buf item rest, framing.next buf = some (item, rest) → P rest → P buf)
    (buf : List α) : P buf := by
  induction length : buf.length using Nat.strongRecOn generalizing buf with
  | ind n ih =>
    cases found : framing.next buf with
    | none => exact stuck buf found
    | some taken =>
      obtain ⟨item, rest⟩ := taken
      exact step buf item rest found (ih _ (length ▸ framing.shrinks found) rest rfl)

theorem drainFuel_succ (found : framing.next buf = some (item, rest)) : framing.drainFuel (fuel + 1) buf =
    (item :: (framing.drainFuel fuel rest).1, (framing.drainFuel fuel rest).2) := by
  simp only [drainFuel, found]

theorem drainFuel_enough (enough : buf.length ≤ fuel) :
    framing.drainFuel fuel buf = framing.drain buf := by
  induction buf using framing.induct generalizing fuel with
  | stuck buf none =>
    unfold drain
    cases fuel <;> cases length : buf.length <;> simp [drainFuel, none]
  | step buf item rest found ih =>
    have less := framing.shrinks found
    unfold drain
    obtain ⟨fuel, rfl⟩ : ∃ k, fuel = k + 1 := ⟨fuel - 1, by omega⟩
    obtain ⟨size, length⟩ : ∃ k, buf.length = k + 1 := ⟨buf.length - 1, by omega⟩
    have short : rest.length ≤ size := by omega
    rw [length, framing.drainFuel_succ found, framing.drainFuel_succ found, ih short,
      ih (show rest.length ≤ fuel by omega)]

theorem drain_none (none : framing.next buf = none) : framing.drain buf = ([], buf) := by
  unfold drain
  cases length : buf.length <;> simp [drainFuel, none]

theorem drain_some (found : framing.next buf = some (item, rest)) :
    framing.drain buf = (item :: (framing.drain rest).1, (framing.drain rest).2) := by
  have less := framing.shrinks found
  obtain ⟨size, length⟩ : ∃ k, buf.length = k + 1 := ⟨buf.length - 1, by omega⟩
  rw [drain, length, framing.drainFuel_succ found, framing.drainFuel_enough (by omega)]

/-- Input that arrives in two pieces gives the items of both in order. -/
theorem drain_append (first second : List α) :
    framing.drain (first ++ second) =
      ((framing.drain first).1 ++ (framing.drain ((framing.drain first).2 ++ second)).1,
        (framing.drain ((framing.drain first).2 ++ second)).2) := by
  induction first using framing.induct with
  | stuck buf none => rw [framing.drain_none none]; rfl
  | step buf item rest found ih =>
    rw [framing.drain_some (framing.stable found), framing.drain_some found, ih]
    rfl

/-- Items that are complete one after another are all taken. -/
theorem drain_flatMap {γ : Type} {encode : γ → List α} {view : γ → β}
    (complete : ∀ item more, framing.next (encode item ++ more) = some (view item, more))
    (items : List γ) (stuck : framing.next tail = none) :
    framing.drain (items.flatMap encode ++ tail) = (items.map view, tail) := by
  induction items with
  | nil => exact framing.drain_none stuck
  | cons item items ih =>
    rw [List.flatMap_cons, List.append_assoc, framing.drain_some (complete item _), ih]
    rfl

end Framing
end SkyDaemon
