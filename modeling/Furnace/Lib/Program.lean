import Mathlib.Logic.Basic

namespace Furnace.Lib

/-!
# Programs that change a state and raise

A program changes a state, and returns a value or raises an exception; what it has changed stays
changed when it raises.  A fault ends the whole run, and there is no state after it.

* `Prog` — the monad, made from the transformers of the core library.
* `Runs x s r s'` — started in `s`, the program `x` ends in `s'` with `r`.
* `Runs.bind`, `Runs.bind_raises` — a sequence whose first part returns, and one whose first part
  raises.
-/

variable {φ σ ε α β : Type}

/-- Programs over the states `σ` with the exceptions `ε` and the faults `φ`. -/
abbrev Prog (φ σ ε α : Type) := ExceptT ε (StateT σ (Except φ)) α

/-- The program that does what a function says. -/
def Prog.ofFun (f : σ → Except φ (Except ε α × σ)) : Prog φ σ ε α := ExceptT.mk f

/-- Started in `s`, the program ends in `s'`, and returns or raises `r`. -/
def Runs (x : Prog φ σ ε α) (s : σ) (r : Except ε α) (s' : σ) : Prop :=
  StateT.run (ExceptT.run x) s = .ok (r, s')

variable {x : Prog φ σ ε α} {f : α → Prog φ σ ε β} {s s₁ s₂ : σ} {a : α} {e : ε} {r : Except ε β}

theorem runs_pure (a : α) (s : σ) : Runs (pure a : Prog φ σ ε α) s (.ok a) s := rfl

theorem runs_throw (e : ε) (s : σ) : Runs (throw e : Prog φ σ ε α) s (.error e) s := rfl

theorem runs_modify (g : σ → σ) (s : σ) :
    Runs (modify g : Prog φ σ ε PUnit) s (.ok .unit) (g s) := rfl

theorem runs_ofFun {g : σ → Except φ (Except ε α × σ)} {r : Except ε α} {s' : σ} :
    Runs (Prog.ofFun g) s r s' ↔ g s = .ok (r, s') := Iff.rfl

/-- A program ends in one way. -/
theorem Runs.unique {r r' : Except ε α} (h : Runs x s r s₁) (h' : Runs x s r' s₂) :
    r = r' ∧ s₁ = s₂ :=
  Prod.mk.inj (Except.ok.inj (h.symm.trans h'))

/-- A sequence goes on with what its first part returns. -/
theorem Runs.bind (hx : Runs x s (.ok a) s₁) (hf : Runs (f a) s₁ r s₂) :
    Runs (x >>= f) s r s₂ := by
  unfold Runs at hx hf ⊢
  rw [ExceptT.run_bind, StateT.run_bind, hx]
  exact hf

/-- A sequence ends where its first part raises. -/
theorem Runs.bind_raises (hx : Runs x s (.error e) s₁) : Runs (x >>= f) s (.error e) s₁ := by
  unfold Runs at hx ⊢
  rw [ExceptT.run_bind, StateT.run_bind, hx]
  rfl

end Furnace.Lib
