import Mathlib.Data.Nat.Basic

namespace Furnace.Lib

/-!
# Chains of pointers

What is reached by following a partial successor function, as a program does that walks along
a list in memory that it does not trust.

* `follow` — the end of a number of steps.
* `EndsWithin` — the walk that stops where a step fails, or where it is back at `z`, ends,
  and every entry that it leaves behind satisfies `p`.
-/

variable {α : Type*} {next : α → Option α} {p : α → Prop} {a b z : α} {n : ℕ}

/-- Where `n` steps from `a` lead, if each of them can be made. -/
def follow (next : α → Option α) : ℕ → α → Option α
  | 0, a => some a
  | n + 1, a => (next a).bind (follow next n)

@[simp] theorem follow_zero : follow next 0 a = some a := rfl

theorem follow_of_next (h : next a = some b) : follow next (n + 1) a = follow next n b := by
  simp [follow, h]

theorem follow_of_stuck (h : next a = none) : follow next (n + 1) a = none := by
  simp [follow, h]

/-- After at most `n` further entries the walk from `a` meets a step that fails, or is back at
    `z`; up to there `p` holds of each entry from which a step leads on. -/
def EndsWithin (next : α → Option α) (z : α) (p : α → Prop) (n : ℕ) (a : α) : Prop :=
  (follow next (n + 1) a = none ∨ follow next (n + 1) a = some z) ∧
    ∀ k ≤ n, ∀ b, follow next k a = some b → next b ≠ none → p b

theorem endsWithin_of_stuck (h : next a = none) : EndsWithin next z p n a := by
  refine ⟨.inl (follow_of_stuck h), fun k _ b hb hne => ?_⟩
  -- no entry but `a` is reached
  cases k with
  | zero =>
    cases hb
    exact absurd h hne
  | succ k =>
    rw [follow_of_stuck h] at hb
    cases hb

theorem endsWithin_zero (h : next a = some b) : EndsWithin next z p 0 a ↔ p a ∧ b = z := by
  have hne : next a ≠ none := by rw [h]; simp
  unfold EndsWithin
  rw [follow_of_next h]
  constructor
  · rintro ⟨hend, hp⟩
    refine ⟨hp 0 le_rfl a rfl hne, ?_⟩
    rcases hend with hend | hend
    · cases hend
    · exact Option.some.inj hend
  · rintro ⟨hp, rfl⟩
    refine ⟨.inr rfl, fun k hk c hc _ => ?_⟩
    obtain rfl : k = 0 := by omega
    cases hc
    exact hp

theorem endsWithin_succ (h : next a = some b) :
    EndsWithin next z p (n + 1) a ↔ p a ∧ EndsWithin next z p n b := by
  have hne : next a ≠ none := by rw [h]; simp
  unfold EndsWithin
  rw [follow_of_next h]
  constructor
  · rintro ⟨hend, hp⟩
    refine ⟨hp 0 (by omega) a rfl hne, hend, fun k hk c hc => hp (k + 1) (by omega) c ?_⟩
    rw [follow_of_next h]
    exact hc
  · rintro ⟨hpa, hend, hp⟩
    refine ⟨hend, fun k hk c hc hcne => ?_⟩
    cases k with
    | zero =>
      cases hc
      exact hpa
    | succ k =>
      rw [follow_of_next h] at hc
      exact hp k (by omega) c hc hcne

end Furnace.Lib
