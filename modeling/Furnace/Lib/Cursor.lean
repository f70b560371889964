import Mathlib.Data.List.TakeDrop

namespace Furnace.Lib

/-!
# Cursor scans

A loop `for (j = start; j < xs.size(); j++) if (hit(j)) { … break; }` visits the entries of
`xs` from a remembered cursor on and stops at the first index that hits.  `scanFrom` is
that loop; where at most one index can hit — the index `j` with `j + d = t` —
`scanFrom_eq` says in closed form which entry it finds.
-/

variable {α : Type*}

/-- The loop body over the entries `xs`, the first of which has index `j`. -/
def scan (hit : ℕ → Bool) : ℕ → List α → Option (ℕ × α)
  | _, [] => none
  | j, x :: xs => if hit j then some (j, x) else scan hit (j + 1) xs

/-- The loop over `xs` started at the cursor `start`. -/
def scanFrom (hit : ℕ → Bool) (start : ℕ) (xs : List α) : Option (ℕ × α) :=
  scan hit start (xs.drop start)

/-- A scan for the index `j` with `j + d = t` finds the entry at `t - d`, unless the scan
    starts past it. -/
theorem scan_eq (t d j : ℕ) (xs : List α) :
    scan (fun i => decide (t = i + d)) j xs
      = if j + d ≤ t then (xs[t - (j + d)]?).map (fun x => (t - d, x)) else none := by
  induction xs generalizing j with
  | nil => simp [scan]
  | cons x xs ih =>
    rw [scan]
    by_cases h : t = j + d
    · simp [h]
    · rw [if_neg (by simpa using h), ih (j + 1)]
      by_cases hle : j + d ≤ t
      · have h1 : j + 1 + d ≤ t := by omega
        rw [if_pos hle, if_pos h1, show t - (j + d) = t - (j + 1 + d) + 1 by omega,
          List.getElem?_cons_succ]
      · rw [if_neg hle, if_neg (by omega)]

/-- **Closed form of the cursor scan.** Started at `start`, the scan for the index `j` with
    `j + d = t` finds entry `t - d` of `xs` exactly when that index is not below the
    cursor. -/
theorem scanFrom_eq (t d start : ℕ) (xs : List α) :
    scanFrom (fun i => decide (t = i + d)) start xs
      = if start + d ≤ t then (xs[t - d]?).map (fun x => (t - d, x)) else none := by
  rw [scanFrom, scan_eq]
  by_cases h : start + d ≤ t
  · rw [if_pos h, if_pos h, List.getElem?_drop, show start + (t - (start + d)) = t - d by omega]
  · rw [if_neg h, if_neg h]

end Furnace.Lib
