import Mathlib.Data.List.DropRight
import Mathlib.Data.List.Nodup
import Mathlib.Logic.Basic

namespace Furnace.Lib.PyText

/-!
# Python's text operations

A `str` is the list of its characters.  Only what the line-oriented parsers of Python
programs are made of: `split`, `strip`, `replace`, `int` and the ordered `dict`.

* `words` — `s.split()`, the maximal runs without whitespace.
* `pieces` — `s.split(c)`, which keeps empty pieces.
* `strip`, `without`, `contains` — `s.strip()`, `s.replace(c, '')`, `sub in s`.
* `osDirname`, `osBasename` — `os.path.dirname(s)`, `os.path.basename(s)`.
* `toInt` — `int(s)`.
* `assign` — `d[k] = v` on a dict as the list of its items; `foldl_assign_eq_iff` — when the
  items of a dict are the assignments it was made from.
-/

/-- A Python string. -/
abbrev Str := List Char

/-- `c.isspace()`, the separators of `split()` and what `strip()` takes off. -/
def isSpace (c : Char) : Bool :=
  c.toNat ∈ [0x09, 0x0a, 0x0b, 0x0c, 0x0d, 0x1c, 0x1d, 0x1e, 0x1f, 0x20, 0x85, 0xa0, 0x1680,
    0x2028, 0x2029, 0x202f, 0x205f, 0x3000] || (0x2000 ≤ c.toNat && c.toNat ≤ 0x200a)

/-- `s.split()`. -/
def words (s : Str) : List Str := (s.splitOnP isSpace).filter (· ≠ [])

/-- `s.split(c)`. -/
def pieces (c : Char) (s : Str) : List Str := s.splitOnP (· == c)

/-- `s.strip()`. -/
def strip (s : Str) : Str := (s.dropWhile isSpace).rdropWhile isSpace

/-- `s.replace(c, '')`. -/
def without (c : Char) (s : Str) : Str := s.filter (· ≠ c)

/-- `sub in s`. -/
def contains (sub : Str) : Str → Bool
  | [] => sub.isEmpty
  | c :: s => sub.isPrefixOf (c :: s) || contains sub s

/-- `os.path.dirname(s)`. -/
def osDirname (s : Str) : Str :=
  let head := s.rdropWhile (· ≠ '/')
  -- the slashes of a root are kept
  if head.all (· = '/') then head else head.rdropWhile (· = '/')

/-- `os.path.basename(s)`. -/
def osBasename (s : Str) : Str := s.rtakeWhile (· ≠ '/')

/-! ### Integers -/

/-- The code points of the digits zero; the nine others follow each of them. -/
def zeros : List ℕ :=
  [0x30, 0x660, 0x6f0, 0x7c0, 0x966, 0x9e6, 0xa66, 0xae6, 0xb66, 0xbe6, 0xc66, 0xce6, 0xd66, 0xde6,
   0xe50, 0xed0, 0xf20, 0x1040, 0x1090, 0x17e0, 0x1810, 0x1946, 0x19d0, 0x1a80, 0x1a90, 0x1b50,
   0x1bb0, 0x1c40, 0x1c50, 0xa620, 0xa8d0, 0xa900, 0xa9d0, 0xa9f0, 0xaa50, 0xabf0, 0xff10, 0x104a0,
   0x11066, 0x110f0, 0x11136, 0x111d0, 0x112f0, 0x11450, 0x114d0, 0x11650, 0x116c0, 0x11730,
   0x118e0, 0x11c50, 0x11d50, 0x16a60, 0x16b50, 0x1d7ce, 0x1d7d8, 0x1d7e2, 0x1d7ec, 0x1d7f6,
   0x1e950]

/-- The value of a decimal digit. -/
def digit? (c : Char) : Option ℕ :=
  (zeros.find? fun z => z ≤ c.toNat ∧ c.toNat < z + 10).map (c.toNat - ·)

/-- The value of a run of digits after a number read so far; single underscores may stand
    between digits. -/
def digits? (n : ℕ) : Str → Option ℕ
  | [] => some n
  | ['_'] => none
  | '_' :: c :: s => (digit? c).bind fun d => digits? (10 * n + d) s
  | c :: s => (digit? c).bind fun d => digits? (10 * n + d) s

/-- A nonempty run of digits. -/
def natural? : Str → Option ℕ
  | [] => none
  | c :: s => (digit? c).bind fun d => digits? d s

/-- `int(s)`; `none` is `ValueError`. -/
def toInt (s : Str) : Option ℤ :=
  match strip s with
  | '-' :: t => (natural? t).map fun n => -(n : ℤ)
  | '+' :: t => (natural? t).map fun n => (n : ℤ)
  | t => (natural? t).map fun n => (n : ℤ)

/-! ### Ordered dicts -/

section Dict

variable {κ ν : Type} [DecidableEq κ]

/-- `d[k] = v`: a key keeps the place where it was first assigned. -/
def assign (k : κ) (v : ν) : List (κ × ν) → List (κ × ν)
  | [] => [(k, v)]
  | (k', v') :: d => if k' = k then (k, v) :: d else (k', v') :: assign k v d

/-- An assignment adds its key and keeps all others. -/
theorem mem_keys_assign {k k' : κ} {v : ν} {d : List (κ × ν)} :
    k' ∈ (assign k v d).map Prod.fst ↔ k' = k ∨ k' ∈ d.map Prod.fst := by
  induction d with
  | nil => simp [assign]
  | cons p d ih =>
    obtain ⟨k₀, v₀⟩ := p
    rw [assign]
    by_cases h : k₀ = k
    · subst h
      simp
    · rw [if_neg h, List.map_cons, List.mem_cons, ih, List.map_cons, List.mem_cons]
      tauto

/-- A new key goes to the end. -/
theorem assign_of_not_mem {k : κ} {v : ν} {d : List (κ × ν)} (h : k ∉ d.map Prod.fst) :
    assign k v d = d ++ [(k, v)] := by
  induction d with
  | nil => rfl
  | cons p d ih =>
    obtain ⟨k', v'⟩ := p
    rw [List.map_cons, List.mem_cons, not_or] at h
    rw [assign, if_neg (Ne.symm h.1), ih h.2, List.cons_append]

/-- A dict has each of its keys once. -/
theorem nodup_keys_assign {k : κ} {v : ν} {d : List (κ × ν)} (h : (d.map Prod.fst).Nodup) :
    ((assign k v d).map Prod.fst).Nodup := by
  induction d with
  | nil => exact List.nodup_singleton k
  | cons p d ih =>
    obtain ⟨k', v'⟩ := p
    obtain ⟨hnot, hd⟩ := List.nodup_cons.mp h
    rw [assign]
    by_cases hk : k' = k
    · subst hk
      rw [if_pos rfl]
      exact List.nodup_cons.mpr ⟨hnot, hd⟩
    · rw [if_neg hk]
      refine List.nodup_cons.mpr ⟨fun hmem => ?_, ih hd⟩
      rcases mem_keys_assign.mp hmem with he | hmem
      · exact hk he
      · exact hnot hmem

/-- **A dict filled in order** holds the assignments as they were made, if and only if no key
    was assigned twice. -/
theorem foldl_assign_eq_iff {entries : List (κ × ν)} :
    entries.foldl (fun d e => assign e.1 e.2 d) [] = entries ↔
      (entries.map Prod.fst).Nodup := by
  constructor
  · intro h
    have hkeys : ∀ (es d : List (κ × ν)), (d.map Prod.fst).Nodup →
        ((es.foldl (fun d e => assign e.1 e.2 d) d).map Prod.fst).Nodup := by
      intro es
      induction es with
      | nil => exact fun d hd => hd
      | cons e es ih => exact fun d hd => ih _ (nodup_keys_assign hd)
    rw [← h]
    exact hkeys entries [] List.nodup_nil
  · intro h
    have hall : ∀ (es d : List (κ × ν)), ((d ++ es).map Prod.fst).Nodup →
        es.foldl (fun d e => assign e.1 e.2 d) d = d ++ es := by
      intro es
      induction es with
      | nil => exact fun d _ => (List.append_nil d).symm
      | cons e es ih =>
        intro d hd
        -- the key of the next assignment is a new one
        have hnew : e.1 ∉ d.map Prod.fst := by
          rw [List.map_append, List.map_cons] at hd
          exact fun hmem =>
            List.disjoint_of_nodup_append hd hmem (List.mem_cons_self ..)
        rw [List.foldl_cons, assign_of_not_mem hnew, ih _ (by simpa using hd), List.append_assoc]
        rfl
    exact hall entries [] h

/-- An assignment of what is there changes nothing. -/
theorem assign_of_mem {k : κ} {v : ν} {d : List (κ × ν)} (hd : (d.map Prod.fst).Nodup)
    (h : (k, v) ∈ d) : assign k v d = d := by
  induction d with
  | nil => cases h
  | cons p d ih =>
    obtain ⟨k', v'⟩ := p
    obtain ⟨hnot, hd⟩ := List.nodup_cons.mp hd
    rw [assign]
    rcases List.mem_cons.mp h with heq | hmem
    · cases heq
      exact if_pos rfl
    · have hne : ¬k' = k := by
        rintro rfl
        exact hnot (List.mem_map.mpr ⟨_, hmem, rfl⟩)
      rw [if_neg hne, ih hd hmem]

/-- A dict that is filled, and then filled again with some of the same. -/
theorem foldl_assign_again {es again : List (κ × ν)} (hes : (es.map Prod.fst).Nodup)
    (hagain : ∀ e ∈ again, e ∈ es) :
    (es ++ again).foldl (fun d e => assign e.1 e.2 d) [] = es := by
  rw [List.foldl_append, foldl_assign_eq_iff.mpr hes]
  induction again with
  | nil => rfl
  | cons e again ih =>
    rw [List.foldl_cons, assign_of_mem hes (hagain e (List.mem_cons_self ..))]
    exact ih fun e' h' => hagain e' (List.mem_cons_of_mem _ h')

end Dict

/-! ### Two pieces -/

/-- A text with the separator in one place. -/
theorem pieces_eq_pair {c : Char} {a b : Str} (ha : c ∉ a) (hb : c ∉ b) :
    pieces c (a ++ c :: b) = [a, b] := by
  have hnone : ∀ t : Str, c ∉ t → ∀ x ∈ t, (x == c) = false := by
    intro t ht x hx
    exact beq_eq_false_iff_ne.mpr fun he => ht (he ▸ hx)
  rw [pieces, List.splitOnP_append_cons_of_forall_mem (hnone a ha) c (beq_self_eq_true c),
    List.splitOnP_eq_singleton (hnone b hb)]

/-! ### Characters that survive -/

/-- `strip` only takes whitespace off. -/
theorem mem_strip {c : Char} {s : Str} (h : c ∈ s) (hc : isSpace c = false) : c ∈ strip s := by
  have hnot : ¬ isSpace c = true := by simp [hc]
  have hdrop : ∀ t : Str, c ∈ t → c ∈ t.dropWhile isSpace := by
    intro t ht
    rw [← List.takeWhile_append_dropWhile (p := isSpace) (l := t), List.mem_append] at ht
    rcases ht with ht | ht
    · exact absurd (List.mem_takeWhile_imp ht) hnot
    · exact ht
  -- once from the front and once from the back
  rw [strip, List.rdropWhile, List.mem_reverse]
  apply hdrop
  rw [List.mem_reverse]
  exact hdrop s h

theorem strip_subset (s : Str) : strip s ⊆ s := by
  have hl : s.dropWhile isSpace ⊆ s := (List.dropWhile_suffix isSpace).subset
  exact List.Subset.trans (List.rdropWhile_prefix isSpace _).subset hl

/-- A blank line has no words. -/
theorem words_eq_nil {s : Str} (h : ∀ c ∈ s, isSpace c = true) : words s = [] := by
  induction s with
  | nil => rfl
  | cons c s ih =>
    have hc : isSpace c = true := h c (List.mem_cons_self ..)
    have ih := ih fun d hd => h d (List.mem_cons_of_mem _ hd)
    rw [words, List.splitOnP_cons_eq_if_modifyHead, if_pos hc, List.filter_cons_of_neg (by simp)]
    exact ih

/-- The parts of a split text are made of its characters. -/
theorem subset_of_mem_splitOnP {p : Char → Bool} {s t : Str} (h : t ∈ s.splitOnP p) : t ⊆ s := by
  induction s generalizing t with
  | nil =>
    rw [List.splitOnP_nil, List.mem_singleton] at h
    exact h ▸ List.Subset.refl _
  | cons a s ih =>
    rw [List.splitOnP_cons_eq_if_modifyHead] at h
    by_cases ha : p a
    · rw [if_pos ha, List.mem_cons] at h
      rcases h with rfl | h
      · exact List.nil_subset _
      · exact List.subset_cons_of_subset _ (ih h)
    · -- the first part grows by `a`, the others are those of the tail
      rw [if_neg ha] at h
      obtain ⟨u, us, hparts⟩ := List.exists_cons_of_ne_nil (List.splitOnP_ne_nil p s)
      rw [hparts, List.modifyHead_cons, List.mem_cons] at h
      rcases h with rfl | h
      · have hu : u ⊆ s := ih (hparts ▸ List.mem_cons_self ..)
        exact List.cons_subset_cons _ hu
      · exact List.subset_cons_of_subset _ (ih (hparts ▸ List.mem_cons_of_mem _ h))

/-- The words of a line are made of its characters. -/
theorem mem_of_mem_words {c : Char} {w s : Str} (hw : w ∈ words s) (hc : c ∈ w) : c ∈ s := by
  rw [words, List.mem_filter] at hw
  exact subset_of_mem_splitOnP hw.1 hc

end Furnace.Lib.PyText
