import Mathlib.Data.Nat.Notation

namespace Furnace.Lib

/-!
# Pieces of a range

A range of numbers that is gone through piece by piece.

* `Tiles lo pieces hi` — the pieces, each a start and a length, go from `lo` to `hi` without a gap
  and without an overlap.
* `tiles_append` — the pieces of two ranges that meet.
* `tiles_flatten` — what lies at the pieces, put together, is what lies in the range.
-/

/-- Each piece starts where the one before it has ended. -/
def Tiles : ℕ → List (ℕ × ℕ) → ℕ → Prop
  | lo, [], hi => lo = hi
  | lo, (a, n) :: pieces, hi => a = lo ∧ Tiles (lo + n) pieces hi

variable {lo mid hi : ℕ} {pieces : List (ℕ × ℕ)}

theorem tiles_nil : Tiles lo [] lo := rfl

/-- Two ranges that meet. -/
theorem tiles_append {before after : List (ℕ × ℕ)} (h₁ : Tiles lo before mid)
    (h₂ : Tiles mid after hi) : Tiles lo (before ++ after) hi := by
  induction before generalizing lo with
  | nil =>
    cases h₁
    exact h₂
  | cons p before ih =>
    obtain ⟨a, n⟩ := p
    exact ⟨h₁.1, ih h₁.2⟩

/-- A range does not end before it starts. -/
theorem Tiles.le (h : Tiles lo pieces hi) : lo ≤ hi := by
  induction pieces generalizing lo with
  | nil =>
    cases h
    exact Nat.le_refl _
  | cons p pieces ih =>
    have hle := ih h.2
    omega

/-- What lies at the pieces lies in the range. -/
theorem tiles_flatten {α : Type} (mem : List α) (h : Tiles lo pieces hi) :
    (pieces.map fun p => (mem.drop p.1).take p.2).flatten = (mem.drop lo).take (hi - lo) := by
  induction pieces generalizing lo with
  | nil =>
    cases h
    rw [Nat.sub_self]
    rfl
  | cons p pieces ih =>
    obtain ⟨a, n⟩ := p
    obtain ⟨rfl, hrest⟩ := h
    have hle := hrest.le
    rw [List.map_cons, List.flatten_cons, ih hrest, show hi - a = n + (hi - (a + n)) by omega,
      List.take_add, List.drop_drop]

end Furnace.Lib
