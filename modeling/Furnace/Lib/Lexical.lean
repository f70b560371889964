import Furnace.Lib.Libgen

namespace Furnace.Lib.Lexical

open Furnace.Lib.Libgen

/-!
# Absolute paths, lexically

What a path names as far as its text tells, without looking at the file system: repeated
slashes and `.` say nothing, and `..` takes the component before it off.

* `components`, `walk` — the components of a path, and where they lead from a directory.
* `normalForm` — the components of the normalised path.
* `Within` — the path is the directory or lies below it.
* `stays` — the components never lead above the directory they start from.
* `within_append` — a path that goes on behind a directory, at the end of one of its
  components, and stays below it.
-/

/-- `..`. -/
def dotdot : CStr := [dot, dot]

/-- The components of a path that say something. -/
def components (path : CStr) : List CStr :=
  (path.splitOnP (· == slash)).filter fun c => c ≠ [] ∧ c ≠ [dot]

/-- One component further.  The root is its own parent. -/
def enter (dir : List CStr) (c : CStr) : List CStr :=
  if c = dotdot then dir.dropLast else dir ++ [c]

/-- Where the components lead from a directory. -/
def walk (dir : List CStr) (cs : List CStr) : List CStr := cs.foldl enter dir

/-- The components of the normalised path. -/
def normalForm (path : CStr) : List CStr := walk [] (components path)

/-- The path is the directory or lies below it. -/
def Within (dir path : CStr) : Prop := normalForm dir <+: normalForm path

instance (dir path : CStr) : Decidable (Within dir path) :=
  inferInstanceAs (Decidable (normalForm dir <+: normalForm path))

/-- The components never lead more than `n` directories up. -/
def stays : ℕ → List CStr → Bool
  | _, [] => true
  | n, c :: cs => if c = dotdot then n ≠ 0 && stays (n - 1) cs else stays (n + 1) cs

/-! ### Walking -/

/-- A walk that stays below a directory does not depend on where the directory is. -/
theorem walk_append {n : ℕ} {dir below cs : List CStr} (hn : below.length = n)
    (h : stays n cs = true) : walk (dir ++ below) cs = dir ++ walk below cs := by
  induction cs generalizing n below with
  | nil => rfl
  | cons c cs ih =>
    show walk (enter (dir ++ below) c) cs = dir ++ walk (enter below c) cs
    rw [stays] at h
    rw [enter, enter]
    split_ifs at h ⊢ with hc
    · -- there is a directory below to go up from
      obtain ⟨hpos, h⟩ := Bool.and_eq_true_iff.mp h
      have hpos : n ≠ 0 := by simpa using hpos
      have hne : below ≠ [] := by
        rintro rfl
        exact hpos hn.symm
      rw [List.dropLast_append_of_ne_nil hne]
      exact ih (by rw [List.length_dropLast, hn]) h
    · rw [List.append_assoc]
      exact ih (by rw [List.length_append, hn, List.length_singleton]) h

/-! ### Paths -/

/-- A slash ends a component. -/
theorem components_append_slash (a b : CStr) :
    components (a ++ slash :: b) = components a ++ components b := by
  rw [components, List.splitOnP_append_cons a b (by simp), List.filter_append]
  rfl

/-- A directory and what follows it, at the end of a component of the directory. -/
theorem components_append {dir rest : CStr}
    (h : dir.getLast? = some slash ∨ rest.head? = some slash) :
    components (dir ++ rest) = components dir ++ components rest := by
  rcases h with h | h
  · obtain ⟨front, rfl⟩ := List.getLast?_eq_some_iff.mp h
    have hfront : components (front ++ [slash]) = components front := by
      rw [components_append_slash]
      exact List.append_nil _
    rw [hfront, List.append_assoc]
    exact components_append_slash front rest
  · obtain ⟨rest, rfl⟩ := List.head?_eq_some_iff.mp h
    -- the empty component in front of a slash says nothing
    have hrest : components (slash :: rest) = components rest := components_append_slash [] rest
    rw [hrest]
    exact components_append_slash dir rest

/-- **A path behind a directory.** -/
theorem normalForm_append {dir rest : CStr}
    (h : dir.getLast? = some slash ∨ rest.head? = some slash)
    (hstays : stays 0 (components rest) = true) :
    normalForm (dir ++ rest) = normalForm dir ++ normalForm rest := by
  have hwalk : walk (normalForm dir ++ []) (components rest) =
      normalForm dir ++ walk [] (components rest) := walk_append rfl hstays
  rw [List.append_nil] at hwalk
  rw [normalForm, components_append h]
  exact List.foldl_append.trans hwalk

/-- A path that goes on behind a directory and stays below it. -/
theorem within_append {dir rest : CStr}
    (h : dir.getLast? = some slash ∨ rest.head? = some slash)
    (hstays : stays 0 (components rest) = true) : Within dir (dir ++ rest) := by
  rw [Within, normalForm_append h hstays]
  exact List.prefix_append _ _

end Furnace.Lib.Lexical
