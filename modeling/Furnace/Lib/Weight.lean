import Mathlib.Algebra.BigOperators.Group.List.Basic
import Mathlib.Algebra.GroupWithZero.Nat
import Mathlib.Data.List.AList

namespace Furnace.Lib

/-!
# The weight of a map

`weight g m` adds up `g` over the values of a finite map.  Filling a free slot adds the
weight of the new value, emptying a slot takes the weight of the old one, and the weight
depends on `g` at the values of the map only.
-/

variable {κ β : Type*}

/-- The sum of `g` over the values of `m`. -/
def weight (g : β → ℕ) (m : AList fun _ : κ => β) : ℕ := (m.entries.map fun e => g e.2).sum

@[simp] theorem weight_empty (g : β → ℕ) : weight g (∅ : AList fun _ : κ => β) = 0 := rfl

variable [DecidableEq κ]

/-- Filling a free slot adds the weight of its value. -/
theorem weight_insert_of_not_mem (g : β → ℕ) {m : AList fun _ : κ => β} {k : κ} (b : β)
    (h : k ∉ m) : weight g (m.insert k b) = g b + weight g m := by
  rw [weight, AList.entries_insert_of_notMem h]
  rfl

/-- The entries of a list of pairs split off the first one of a key. -/
theorem sum_map_kerase (g : β → ℕ) {k : κ} {b : β} (es : List (Sigma fun _ : κ => β))
    (h : es.dlookup k = some b) :
    (es.map fun e => g e.2).sum = g b + ((es.kerase k).map fun e => g e.2).sum := by
  induction es with
  | nil => cases h
  | cons e es ih =>
    obtain ⟨j, c⟩ := e
    by_cases hj : k = j
    · subst hj
      rw [List.dlookup_cons_eq] at h
      cases h
      have hk : List.kerase k (⟨k, b⟩ :: es) = es := List.kerase_cons_eq rfl
      rw [hk]
      rfl
    · rw [List.dlookup_cons_ne _ _ hj] at h
      rw [List.kerase_cons_ne hj, List.map_cons, List.map_cons, List.sum_cons, List.sum_cons, ih h]
      omega

/-- Emptying a slot takes the weight of its value. -/
theorem weight_of_lookup (g : β → ℕ) {m : AList fun _ : κ => β} {k : κ} {b : β}
    (h : m.lookup k = some b) : weight g m = g b + weight g (m.erase k) :=
  sum_map_kerase g m.entries h

/-- The weight depends on the values of the map only. -/
theorem weight_congr {g g' : β → ℕ} {m : AList fun _ : κ => β}
    (h : ∀ k b, m.lookup k = some b → g b = g' b) : weight g m = weight g' m := by
  unfold weight
  congr 1
  refine List.map_congr_left fun e he => ?_
  exact h e.1 e.2 (AList.mem_lookup_iff.mpr he)

end Furnace.Lib
