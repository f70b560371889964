import Mathlib.Data.List.DropRight

namespace Furnace.Lib

/-!
# The lines of a text

A text is read line by line, each line with the character that ends it; the last one may have none.

* `rdropWhile_append` — what is left of a line without its end.
* `lines` — the lines.
* `lines_append`, `lines_last` — the lines of a text that is put together from them.
-/

variable {α : Type*}

/-- An end that is taken off a line. -/
theorem rdropWhile_append {p : α → Bool} {l e : List α} (he : ∀ b ∈ e, p b = true)
    (hl : ∀ b, l.getLast? = some b → ¬p b = true) : (l ++ e).rdropWhile p = l := by
  induction e using List.reverseRecOn with
  | nil =>
    rw [List.append_nil, List.rdropWhile_eq_self_iff]
    intro hne
    exact hl _ (List.getLast?_eq_getLast_of_ne_nil hne)
  | append_singleton e b ih =>
    rw [← List.append_assoc, List.rdropWhile_concat_pos _ _ _ (he b (by simp))]
    exact ih fun b' hb' => he b' (by simp [hb'])

variable [DecidableEq α] {nl : α}

/-- The lines of a text, with their ends. -/
def lines (nl : α) : List α → List (List α)
  | [] => []
  | b :: text =>
    if b = nl then [b] :: lines nl text
    else match lines nl text with
      | [] => [[b]]
      | l :: ls => (b :: l) :: ls

@[simp] theorem lines_nil (nl : α) : lines nl [] = [] := rfl

theorem lines_cons (nl b : α) (text : List α) :
    lines nl (b :: text) = if b = nl then [b] :: lines nl text
      else match lines nl text with
        | [] => [[b]]
        | l :: ls => (b :: l) :: ls := rfl

/-- The first line ends with the first end of a line. -/
theorem lines_append {l : List α} (hl : nl ∉ l) (text : List α) :
    lines nl (l ++ nl :: text) = (l ++ [nl]) :: lines nl text := by
  induction l with
  | nil =>
    rw [List.nil_append, lines_cons, if_pos rfl]
    rfl
  | cons b l ih =>
    rw [List.mem_cons, not_or] at hl
    rw [List.cons_append, lines_cons, if_neg (Ne.symm hl.1), ih hl.2]
    rfl

/-- A text without an end of a line is one line, if it is not empty. -/
theorem lines_last {l : List α} (hl : nl ∉ l) : lines nl l = if l = [] then [] else [l] := by
  induction l with
  | nil => rfl
  | cons b l ih =>
    rw [List.mem_cons, not_or] at hl
    rw [lines_cons, if_neg (Ne.symm hl.1), ih hl.2, if_neg (List.cons_ne_nil b l)]
    by_cases hnil : l = []
    · rw [if_pos hnil, hnil]
    · rw [if_neg hnil]

end Furnace.Lib
