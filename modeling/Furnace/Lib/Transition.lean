import Mathlib.Order.Basic

namespace Furnace.Lib

/-!
# Labelled transition systems and guarded runs

A `TransitionSystem` is an initial predicate and a labelled step relation.  A **guarded**
run is one whose steps all satisfy a side condition on the state before the step and the
label taken; the unguarded runs are those of the guard `fun _ _ => True`.

* `Reach T guard s` — some guarded run of `T` ends in `s`.
* `Reach.invariant` — the induction rule: what holds initially and is kept by every
  guarded step holds in every state a guarded run reaches.
* `Reach.of_foldlM` — a system given by a partial step function is run by folding it.
-/

/-- A labelled transition system over the states `σ` and the labels `α`. -/
structure TransitionSystem (σ α : Type*) where
  init : σ → Prop
  step : σ → α → σ → Prop

variable {σ α : Type*}

/-- The states a run of `T` reaches when every step `s —a→ s'` of it has `guard s a`. -/
inductive Reach (T : TransitionSystem σ α) (guard : σ → α → Prop) : σ → Prop
  | init {s : σ} (h : T.init s) : Reach T guard s
  | step {s s' : σ} {a : α} (hr : Reach T guard s) (hg : guard s a) (hs : T.step s a s') :
      Reach T guard s'

variable {T : TransitionSystem σ α} {guard : σ → α → Prop}

/-- **Invariant rule.** An invariant of the initial states that every guarded step keeps
    holds in every state of every guarded run. -/
theorem Reach.invariant (inv : σ → Prop) (hinit : ∀ s, T.init s → inv s)
    (hstep : ∀ s a s', inv s → guard s a → T.step s a s' → inv s') {s : σ}
    (hr : Reach T guard s) : inv s := by
  induction hr with
  | init h => exact hinit _ h
  | step _ hg hs ih => exact hstep _ _ _ ih hg hs

/-- A run of a partial step function is a run of the system it steps. -/
theorem Reach.of_foldlM {next : σ → α → Option σ}
    (hnext : ∀ s a s', next s a = some s' → T.step s a s') {as : List α}
    (hg : ∀ a ∈ as, ∀ s, guard s a) {s s' : σ} (hr : Reach T guard s)
    (h : as.foldlM next s = some s') : Reach T guard s' := by
  induction as generalizing s with
  | nil =>
    cases h
    exact hr
  | cons a as ih =>
    rw [List.foldlM_cons] at h
    obtain ⟨s₁, h₁, hrest⟩ := Option.bind_eq_some_iff.mp h
    have hr₁ : Reach T guard s₁ := .step hr (hg a (List.mem_cons_self ..) s) (hnext _ _ _ h₁)
    exact ih (fun b hb => hg b (List.mem_cons_of_mem _ hb)) hr₁ hrest

end Furnace.Lib
