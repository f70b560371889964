import Mathlib.Data.List.AList
import Mathlib.Data.Finset.Card
import Mathlib.Order.Bounds.Basic

namespace Furnace.Lib

/-!
# The lowest free slot of a map

`firstFree m` is the loop `i = 0; while (m has i) i++` over a finite map keyed by `ℕ`.  The
loop makes at most as many steps as the map has entries (`firstFree_le_length`), so that
number is its fuel, and it ends at the least key the map does not have (`firstFree_isLeast`).
-/

variable {β : Type*}

/-- `while (m has i) i++`, with `fuel` steps allowed. -/
def nextFree (m : AList fun _ : ℕ => β) : ℕ → ℕ → ℕ
  | 0, i => i
  | fuel + 1, i => if i ∈ m then nextFree m fuel (i + 1) else i

/-- The lowest key `m` does not have. -/
def firstFree (m : AList fun _ : ℕ => β) : ℕ := nextFree m m.entries.length 0

/-- The search stops within its fuel, passes over present keys only, and stops early only
    at a free key. -/
theorem nextFree_spec (m : AList fun _ : ℕ => β) (fuel i : ℕ) :
    i ≤ nextFree m fuel i ∧ nextFree m fuel i ≤ i + fuel ∧
      (∀ j, i ≤ j → j < nextFree m fuel i → j ∈ m) ∧
      (nextFree m fuel i < i + fuel → nextFree m fuel i ∉ m) := by
  induction fuel generalizing i with
  | zero =>
    exact ⟨le_refl _, le_refl _, fun j h1 h2 => absurd h1 (not_le.mpr h2), by simp [nextFree]⟩
  | succ fuel ih =>
    rw [nextFree]
    by_cases h : i ∈ m
    · rw [if_pos h]
      obtain ⟨h1, h2, h3, h4⟩ := ih (i + 1)
      refine ⟨by omega, by omega, fun j hj hlt => ?_, fun hlt => h4 (by omega)⟩
      -- the key that was just passed, or one of those the rest passes
      rcases eq_or_lt_of_le hj with rfl | hj
      · exact h
      · exact h3 j hj hlt
    · rw [if_neg h]
      exact ⟨le_refl _, by omega, fun j h1 h2 => absurd h1 (not_le.mpr h2), fun _ => h⟩

/-- A map that has every key below `n` has at least `n` entries. -/
theorem le_length_of_mem (m : AList fun _ : ℕ => β) (n : ℕ) (h : ∀ j < n, j ∈ m) :
    n ≤ m.entries.length := by
  have hsub : Finset.range n ⊆ m.keys.toFinset := by
    intro j hj
    rw [List.mem_toFinset, ← AList.mem_keys]
    exact h j (Finset.mem_range.mp hj)
  calc n = (Finset.range n).card := (Finset.card_range n).symm
    _ ≤ m.keys.toFinset.card := Finset.card_le_card hsub
    _ ≤ m.keys.length := m.keys.toFinset_card_le
    _ = m.entries.length := by simp [AList.keys, List.keys]

/-- The loop ends at the least free key. -/
theorem firstFree_isLeast (m : AList fun _ : ℕ => β) : IsLeast {i | i ∉ m} (firstFree m) := by
  obtain ⟨_, h2, h3, h4⟩ := nextFree_spec m m.entries.length 0
  constructor
  · rcases lt_or_eq_of_le h2 with hlt | heq
    · exact h4 hlt
    · -- a present key at the end of the fuel would make one entry too many
      intro hmem
      have hall : ∀ j < m.entries.length + 1, j ∈ m := by
        intro j hj
        rcases Nat.lt_succ_iff_lt_or_eq.mp hj with hj | rfl
        · exact h3 j (Nat.zero_le _) (by omega)
        · rw [firstFree, heq, Nat.zero_add] at hmem
          exact hmem
      have := le_length_of_mem m _ hall
      omega
  · intro i hi
    by_contra hlt
    exact hi (h3 i (Nat.zero_le _) (not_le.mp hlt))

/-- The lowest free key is free. -/
theorem firstFree_not_mem (m : AList fun _ : ℕ => β) : firstFree m ∉ m :=
  (firstFree_isLeast m).1

/-- Every key below the lowest free one is taken. -/
theorem mem_of_lt_firstFree (m : AList fun _ : ℕ => β) {j : ℕ} (h : j < firstFree m) : j ∈ m := by
  by_contra hj
  exact absurd ((firstFree_isLeast m).2 hj) (not_le.mpr h)

/-- The lowest free key is at most the number of entries. -/
theorem firstFree_le_length (m : AList fun _ : ℕ => β) : firstFree m ≤ m.entries.length :=
  le_length_of_mem m _ (fun _ h => mem_of_lt_firstFree m h)

/-! ### Filling and emptying a slot -/

/-- Emptying a slot that was just filled gives the map back. -/
theorem erase_insert_of_not_mem (m : AList fun _ : ℕ => β) {i : ℕ} (b : β) (h : i ∉ m) :
    (m.insert i b).erase i = m := by
  apply AList.ext
  have hentries : (m.insert i b).entries = ⟨i, b⟩ :: m.entries := AList.entries_insert_of_notMem h
  show List.kerase i (m.insert i b).entries = m.entries
  rw [hentries]
  exact List.kerase_cons_eq rfl

/-- Filling a free slot adds one entry. -/
theorem length_insert_of_not_mem (m : AList fun _ : ℕ => β) {i : ℕ} (b : β) (h : i ∉ m) :
    (m.insert i b).entries.length = m.entries.length + 1 := by
  rw [AList.entries_insert_of_notMem h, List.length_cons]

/-- Emptying a taken slot removes one entry. -/
theorem length_erase_of_mem (m : AList fun _ : ℕ => β) {i : ℕ} (h : i ∈ m) :
    (m.erase i).entries.length + 1 = m.entries.length := by
  have hkeys : (m.erase i).keys.length + 1 = m.keys.length := by
    rw [AList.keys_erase, List.length_erase_of_mem (AList.mem_keys.mp h)]
    have := List.length_pos_of_mem (AList.mem_keys.mp h)
    omega
  simpa [AList.keys, List.keys] using hkeys

theorem mem_of_lookup {κ : Type*} [DecidableEq κ] {m : AList fun _ : κ => β} {i : κ} {b : β}
    (h : m.lookup i = some b) : i ∈ m := by
  rw [← AList.lookup_isSome, h]
  rfl

/-- What a map, over any keys, holds after a slot was filled. -/
theorem lookup_insert_eq_some {κ : Type*} [DecidableEq κ] {m : AList fun _ : κ => β} {i j : κ}
    {b c : β} :
    (m.insert i b).lookup j = some c ↔ j = i ∧ c = b ∨ j ≠ i ∧ m.lookup j = some c := by
  by_cases h : j = i
  · subst h
    simp [AList.lookup_insert, eq_comm]
  · simp [AList.lookup_insert_ne h, h]

/-- What a map, over any keys, holds after a slot was emptied. -/
theorem lookup_erase_eq_some {κ : Type*} [DecidableEq κ] {m : AList fun _ : κ => β} {i j : κ}
    {c : β} :
    (m.erase i).lookup j = some c ↔ j ≠ i ∧ m.lookup j = some c := by
  by_cases h : j = i
  · subst h
    simp [AList.lookup_erase]
  · simp [AList.lookup_erase_ne h, h]

/-- Filling a slot right after it was emptied is filling it. -/
theorem insert_erase_self {κ : Type*} [DecidableEq κ] (m : AList fun _ : κ => β) (k : κ) (b : β) :
    (m.erase k).insert k b = m.insert k b := by
  apply AList.ext
  rw [AList.entries_insert, AList.entries_insert]
  show ⟨k, b⟩ :: (m.entries.kerase k).kerase k = _
  rw [List.kerase_of_notMem_keys]
  exact List.notMem_keys_kerase k m.nodupKeys

/-- Every entry has a slot other than the lowest free one. -/
theorem ne_firstFree_of_lookup {m : AList fun _ : ℕ => β} {i : ℕ} {b : β}
    (h : m.lookup i = some b) : i ≠ firstFree m := by
  intro hi
  apply firstFree_not_mem m
  rw [← hi]
  exact mem_of_lookup h

end Furnace.Lib
