import Mathlib.Data.Nat.Notation
import Mathlib.Logic.Basic

namespace Furnace.Lib

/-!
# Inverting computations that can fail

A computation in `Except ε` that returns a value returned one at each of its steps.  The
lemmas here take such a computation apart without unfolding its `do` block; the last ones
are about `Option` instead.
-/

variable {ε α β : Type}

/-- A step that returned goes on with what it returned. -/
theorem ok_bind (a : α) (f : α → Except ε β) : (Except.ok a >>= f) = f a := rfl

/-- A sequence of two steps returns exactly when both do. -/
theorem bind_eq_ok {x : Except ε α} {f : α → Except ε β} {b : β} :
    x >>= f = .ok b ↔ ∃ a, x = .ok a ∧ f a = .ok b := by
  cases x with
  | error e =>
    constructor
    · intro h
      cases h
    · rintro ⟨a, h, -⟩
      cases h
  | ok a =>
    show f a = .ok b ↔ _
    constructor
    · intro h
      exact ⟨a, rfl, h⟩
    · rintro ⟨a', h, hf⟩
      cases h
      exact hf

/-- A sequence of two steps fails where its first failing step does. -/
theorem bind_eq_error {x : Except ε α} {f : α → Except ε β} {e : ε} :
    x >>= f = .error e ↔ x = .error e ∨ ∃ a, x = .ok a ∧ f a = .error e := by
  cases x with
  | error e' =>
    show Except.error e' = .error e ↔ _
    simp
  | ok a =>
    show f a = .error e ↔ _
    simp

/-- Postprocessing a result neither adds nor removes failures. -/
theorem map_eq_ok {x : Except ε α} {f : α → β} {b : β} :
    x.map f = .ok b ↔ ∃ a, x = .ok a ∧ f a = b := by
  cases x with
  | error e => simp [Except.map]
  | ok a => simp [Except.map]

theorem exists_map_eq_ok {x : Except ε α} {f : α → β} :
    (∃ b, x.map f = .ok b) ↔ ∃ a, x = .ok a := by
  cases x with
  | error e => simp [Except.map]
  | ok a => simp [Except.map]

/-- A guarded step returns exactly when the guard holds and the step returns. -/
theorem ite_error_eq_ok {c : Prop} [Decidable c] {x : Except ε α} {e : ε} {a : α} :
    (if c then x else .error e) = .ok a ↔ c ∧ x = .ok a := by
  by_cases h : c
  · simp [h]
  · simp [h]

/-- A guarded step fails where the step does, or at the guard. -/
theorem ite_error_eq_error {c : Prop} [Decidable c] {x : Except ε α} {e e' : ε} :
    (if c then x else .error e) = .error e' ↔ c ∧ x = .error e' ∨ ¬c ∧ e = e' := by
  by_cases h : c
  · simp [h]
  · simp [h]

/-- The results of a list of lookups. -/
theorem exists_of_mem_mapM {f : α → Option β} {xs : List α} {ys : List β}
    (h : xs.mapM f = some ys) {y : β} (hy : y ∈ ys) : ∃ x ∈ xs, f x = some y := by
  induction xs generalizing ys with
  | nil =>
    cases h
    cases hy
  | cons x xs ih =>
    rw [List.mapM_cons] at h
    obtain ⟨y₁, h₁, h⟩ := Option.bind_eq_some_iff.mp h
    obtain ⟨ys₁, h₂, h⟩ := Option.bind_eq_some_iff.mp h
    cases h
    rcases List.mem_cons.mp hy with rfl | hy
    · exact ⟨x, List.mem_cons_self .., h₁⟩
    · obtain ⟨x', hx', hf⟩ := ih h₂ hy
      exact ⟨x', List.mem_cons_of_mem _ hx', hf⟩

/-- Every element is in the domain of a function that succeeds on all. -/
theorem exists_mem_of_mapM {f : α → Option β} {xs : List α} {ys : List β}
    (h : xs.mapM f = some ys) {x : α} (hx : x ∈ xs) : ∃ y ∈ ys, f x = some y := by
  induction xs generalizing ys with
  | nil => cases hx
  | cons x₁ xs ih =>
    rw [List.mapM_cons] at h
    obtain ⟨y₁, h₁, h⟩ := Option.bind_eq_some_iff.mp h
    obtain ⟨ys₁, h₂, h⟩ := Option.bind_eq_some_iff.mp h
    cases h
    rcases List.mem_cons.mp hx with rfl | hx
    · exact ⟨y₁, List.mem_cons_self .., h₁⟩
    · obtain ⟨y, hy, hf⟩ := ih h₂ hx
      exact ⟨y, List.mem_cons_of_mem _ hy, hf⟩

/-- The first result that has a property is that of the first element that has one. -/
theorem find?_mapM {f : α → Option β} {xs : List α} {ys : List β} (h : xs.mapM f = some ys)
    {p : α → Bool} {q : β → Bool} (hpq : ∀ x y, f x = some y → p x = q y) :
    ys.find? q = (xs.find? p).bind f := by
  induction xs generalizing ys with
  | nil =>
    cases h
    rfl
  | cons x xs ih =>
    rw [List.mapM_cons] at h
    obtain ⟨y, hy, h⟩ := Option.bind_eq_some_iff.mp h
    obtain ⟨ys₁, hys, h⟩ := Option.bind_eq_some_iff.mp h
    cases h
    rw [List.find?_cons, List.find?_cons, hpq x y hy]
    cases q y with
    | true => exact hy.symm
    | false => exact ih hys

/-- One step more, for a list of steps that may fail. -/
theorem mapM_range_succ (f : ℕ → Option β) (n : ℕ) :
    (List.range (n + 1)).mapM f =
      ((List.range n).mapM f).bind fun xs => (f n).map fun x => xs ++ [x] := by
  rw [List.range_succ, List.mapM_append]
  cases (List.range n).mapM f with
  | none => rfl
  | some xs => cases hn : f n <;> simp [hn]

/-- More steps, for a list of steps that may fail. -/
theorem mapM_range_add (f : ℕ → Option β) (m n : ℕ) :
    (List.range (m + n)).mapM f = ((List.range m).mapM f).bind fun xs =>
      ((List.range n).mapM fun i => f (m + i)).map (xs ++ ·) := by
  induction n with
  | zero =>
    show (List.range m).mapM f = ((List.range m).mapM f).bind fun xs => some (xs ++ [])
    simp
  | succ n ih =>
    rw [← Nat.add_assoc, mapM_range_succ, ih, mapM_range_succ]
    simp only [Option.bind_assoc, Option.map_bind, Option.bind_map, Option.map_map,
      Function.comp_def, List.append_assoc]

end Furnace.Lib
