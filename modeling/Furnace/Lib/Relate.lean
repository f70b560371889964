import Furnace.Lib.Outcome

namespace Furnace.Lib

/-!
# Two computations side by side

`Both R x y` relates two computations that can fail: both fail, with the same failure, or both
return, and what they return is related by `R`.  It is what a two-run property is stated with,
and it is proved along the steps of the computations:

* `Both.bind` — two sequences whose first steps are related, and whose second steps are whenever
  they get related results;
* `Both.of_ok`, `Both.of_error` — what the one computation says about the other.
-/

variable {ε α β γ δ : Type}

/-- Both fail alike, or both return related results. -/
inductive Both (R : α → β → Prop) : Except ε α → Except ε β → Prop
  | ok {a : α} {b : β} (h : R a b) : Both R (.ok a) (.ok b)
  | error (e : ε) : Both R (.error e) (.error e)

variable {R : α → β → Prop} {S : γ → δ → Prop} {x : Except ε α} {y : Except ε β}

/-- **Sequences.** Related first steps, followed by steps that are related on related results. -/
theorem Both.bind {f : α → Except ε γ} {g : β → Except ε δ} (h : Both R x y)
    (hfg : ∀ a b, R a b → Both S (f a) (g b)) : Both S (x >>= f) (y >>= g) := by
  cases h with
  | ok h => exact hfg _ _ h
  | error e => exact .error e

/-- The second computation returns where the first does. -/
theorem Both.of_ok {a : α} (h : Both R x y) (hx : x = .ok a) : ∃ b, y = .ok b ∧ R a b := by
  subst hx
  cases h with
  | ok h => exact ⟨_, rfl, h⟩

/-- The second computation fails where the first does. -/
theorem Both.of_error {e : ε} (h : Both R x y) (hx : x = .error e) : y = .error e := by
  subst hx
  cases h with
  | error e => rfl

end Furnace.Lib
