import Mathlib.Data.List.Chain
import Mathlib.Logic.Function.Iterate

namespace Furnace.Lib

/-!
# Walks of bounded length

A walk that follows a total successor function, looks at the next place before it goes there, and
gives up after a number of steps: what a program does along a list that it does not trust.

* `visit` — the places of the walk, in order.
* `visit_cycle` — **on a cycle** the walk either goes round once, or comes back to places that it
  has already seen; `Cycle.getElem?_mod` has them in order.
-/

variable {α : Type*} {next : α → α} {stop : α → Bool} {n : ℕ} {a b : α}

/-- The places from `a` on: the walk ends before a place where `stop` holds, and after `n`
    further ones. -/
def visit (next : α → α) (stop : α → Bool) : ℕ → α → List α
  | 0, a => [a]
  | n + 1, a => if stop (next a) then [a] else a :: visit next stop n (next a)

theorem visit_succ_of_stop (h : stop (next a) = true) : visit next stop (n + 1) a = [a] :=
  if_pos h

theorem visit_succ_of_not_stop (h : ¬stop (next a) = true) :
    visit next stop (n + 1) a = a :: visit next stop n (next a) :=
  if_neg h

theorem visit_eq_cons (next : α → α) (stop : α → Bool) (n : ℕ) (a : α) :
    ∃ rest, visit next stop n a = a :: rest := by
  cases n with
  | zero => exact ⟨[], rfl⟩
  | succ n =>
    rw [visit]
    split
    · exact ⟨[], rfl⟩
    · exact ⟨_, rfl⟩

/-- A walk has at most one place more than its bound. -/
theorem length_visit_le (next : α → α) (stop : α → Bool) (n : ℕ) (a : α) :
    (visit next stop n a).length ≤ n + 1 := by
  induction n generalizing a with
  | zero => simp [visit]
  | succ n ih =>
    rw [visit]
    split
    · simp
    · have := ih (next a)
      simp only [List.length_cons]
      omega

/-- A walk that falls short of its bound stands before a place to stop at. -/
theorem stop_of_short (h : (visit next stop n a).length < n + 1) :
    stop (next^[(visit next stop n a).length] a) = true := by
  induction n generalizing a with
  | zero => simp [visit] at h
  | succ n ih =>
    by_cases hstop : stop (next a) = true
    · rw [visit_succ_of_stop hstop]
      exact hstop
    · rw [visit_succ_of_not_stop hstop] at h ⊢
      rw [List.length_cons] at h
      rw [List.length_cons, Function.iterate_succ_apply]
      exact ih (by omega)

/-- The places of a walk follow one another. -/
theorem getElem?_visit {i : ℕ} (h : i < (visit next stop n a).length) :
    (visit next stop n a)[i]? = some (next^[i] a) := by
  induction n generalizing a i with
  | zero =>
    obtain rfl : i = 0 := by simpa [visit] using h
    rfl
  | succ n ih =>
    by_cases hstop : stop (next a) = true
    · rw [visit_succ_of_stop hstop] at h ⊢
      obtain rfl : i = 0 := by simpa using h
      rfl
    · rw [visit_succ_of_not_stop hstop] at h ⊢
      cases i with
      | zero => rfl
      | succ i =>
        rw [List.getElem?_cons_succ, ih (by simpa using h), Function.iterate_succ_apply]

/-! ### Cycles -/

/-- The `entries`, of which `a` is the first, lead one to the other and back to `a`. -/
def Cycle (next : α → α) (a : α) (entries : List α) : Prop :=
  entries.head? = some a ∧ List.IsChain (fun b c => next b = c) (entries ++ [a])

/-- A walk that starts on a set of places closed under steps stays there. -/
theorem visit_subset {p : α → Prop} (hnext : ∀ b, p b → p (next b)) (ha : p a) :
    ∀ b ∈ visit next stop n a, p b := by
  induction n generalizing a with
  | zero =>
    intro b hb
    rw [visit, List.mem_singleton] at hb
    exact hb ▸ ha
  | succ n ih =>
    intro b hb
    by_cases hstop : stop (next a) = true
    · rw [visit_succ_of_stop hstop, List.mem_singleton] at hb
      exact hb ▸ ha
    · rw [visit_succ_of_not_stop hstop] at hb
      rcases List.mem_cons.mp hb with rfl | hb
      · exact ha
      · exact ih (hnext a ha) b hb

/-- The successor of an entry of a cycle is an entry. -/
theorem Cycle.next_mem {entries : List α} (h : Cycle next a entries) (hb : b ∈ entries) :
    next b ∈ entries := by
  obtain ⟨hhead, hchain⟩ := h
  have ha : a ∈ entries := List.mem_of_mem_head? hhead
  obtain ⟨before, after, rfl⟩ := List.append_of_mem hb
  have hstep : next b ∈ after ++ [a] := by
    rw [List.append_assoc, List.cons_append] at hchain
    have hrest := (List.isChain_append.mp hchain).2.1
    cases after with
    | nil =>
      have : next b = a := by simpa using hrest
      simp [this]
    | cons c after =>
      have : next b = c := (List.isChain_cons_cons.mp hrest).1
      simp [this]
  rcases List.mem_append.mp hstep with hmem | hmem
  · exact List.mem_append_right _ (List.mem_cons_of_mem _ hmem)
  · rw [List.mem_singleton] at hmem
    rwa [hmem]

/-- Steps along a cycle go round and round. -/
theorem Cycle.getElem?_mod {entries : List α} (h : Cycle next a entries) (i : ℕ) :
    entries[i % entries.length]? = some (next^[i] a) := by
  obtain ⟨hhead, hchain⟩ := h
  have hpos : 0 < entries.length :=
    List.length_pos_iff.mpr fun hnil => by simp [hnil] at hhead
  have hzero : entries[0]? = some a := by rw [← List.head?_eq_getElem?, hhead]
  induction i with
  | zero => rw [Nat.zero_mod, hzero, Function.iterate_zero_apply]
  | succ i ih =>
    rw [Function.iterate_succ_apply']
    have hlt : i % entries.length < entries.length := Nat.mod_lt _ hpos
    obtain ⟨hlt', hget⟩ := List.getElem?_eq_some_iff.mp ih
    have hstep := List.isChain_iff_getElem.mp hchain (i % entries.length) (by simp; omega)
    rw [List.getElem_append_left hlt, hget] at hstep
    rw [hstep]
    by_cases hend : i % entries.length + 1 < entries.length
    · have hmod : (i + 1) % entries.length = i % entries.length + 1 := by
        rw [← Nat.mod_add_mod, Nat.mod_eq_of_lt hend]
      rw [hmod, List.getElem_append_left hend, List.getElem?_eq_getElem hend]
    · -- behind the last entry stands the first one
      have hmod : (i + 1) % entries.length = 0 := by
        rw [← Nat.mod_add_mod, show i % entries.length + 1 = entries.length by omega, Nat.mod_self]
      rw [hmod, hzero, List.getElem_append_right (by omega)]
      simp

/-- From an entry on, the walk goes through the rest of the entries, and from the last of them
    either stops or goes on. -/
theorem visit_chain {rest : List α} (hchain : List.IsChain (fun b c => next b = c) (a :: rest))
    (hrest : ∀ b ∈ rest, ¬stop b = true) (hn : rest.length ≤ n) :
    visit next stop n a = a :: rest ∨ ∃ last m, (a :: rest).getLast? = some last ∧
      ¬stop (next last) = true ∧
      visit next stop n a = a :: rest ++ visit next stop m (next last) := by
  induction rest generalizing a n with
  | nil =>
    cases n with
    | zero => exact .inl rfl
    | succ n =>
      by_cases hstop : stop (next a) = true
      · exact .inl (visit_succ_of_stop hstop)
      · exact .inr ⟨a, n, rfl, hstop, visit_succ_of_not_stop hstop⟩
  | cons c rest ih =>
    obtain ⟨hac, hchain⟩ := List.isChain_cons_cons.mp hchain
    cases n with
    | zero => simp at hn
    | succ n =>
      have hstop : ¬stop (next a) = true := by
        rw [hac]
        exact hrest c (List.mem_cons_self ..)
      rw [visit_succ_of_not_stop hstop, hac]
      have hn : rest.length ≤ n := by simpa using hn
      rcases ih hchain (fun b hb => hrest b (List.mem_cons_of_mem _ hb)) hn with
        heq | ⟨last, m, hlast, hgo, heq⟩
      · rw [heq]
        exact .inl rfl
      · rw [heq]
        exact .inr ⟨last, m, hlast, hgo, rfl⟩

/-- **A walk on a cycle** of no more entries than it may visit, none but the first of which is one
    to stop at, goes through all of them in order; after that it comes to places that it has
    already seen. -/
theorem visit_cycle {entries : List α} (h : Cycle next a entries)
    (hstop : ∀ b ∈ entries.tail, ¬stop b = true) (hn : entries.length ≤ n + 1) :
    ∃ again, visit next stop n a = entries ++ again ∧ ∀ b ∈ again, b ∈ entries := by
  have hnext := fun b (hb : b ∈ entries) => h.next_mem hb
  have ha : a ∈ entries := List.mem_of_mem_head? h.1
  obtain ⟨hhead, hchain⟩ := h
  obtain ⟨rest, rfl⟩ : ∃ rest, entries = a :: rest := by
    cases entries with
    | nil => cases hhead
    | cons b rest =>
      cases hhead
      exact ⟨rest, rfl⟩
  have hchain : List.IsChain (fun b c => next b = c) (a :: rest) :=
    (List.isChain_append.mp hchain).1
  have hn : rest.length ≤ n := by simpa using hn
  rcases visit_chain hchain hstop hn with heq | ⟨last, m, hlast, -, heq⟩
  · exact ⟨[], by rw [heq, List.append_nil], nofun⟩
  · refine ⟨_, heq, visit_subset hnext ?_⟩
    exact hnext last (List.mem_of_getLast? hlast)

/-- If the walk is to stop at the first entry, it goes round once. -/
theorem visit_cycle_once {entries : List α} (h : Cycle next a entries)
    (hstop : ∀ b ∈ entries, stop b = true ↔ b = a) (hnodup : entries.Nodup)
    (hn : entries.length ≤ n + 1) : visit next stop n a = entries := by
  obtain ⟨hhead, hchain⟩ := h
  obtain ⟨rest, rfl⟩ : ∃ rest, entries = a :: rest := by
    cases entries with
    | nil => cases hhead
    | cons b rest =>
      cases hhead
      exact ⟨rest, rfl⟩
  have hrest : ∀ b ∈ rest, ¬stop b = true := by
    intro b hb hstops
    have heq := (hstop b (List.mem_cons_of_mem _ hb)).mp hstops
    exact (List.nodup_cons.mp hnodup).1 (heq ▸ hb)
  have hn : rest.length ≤ n := by simpa using hn
  rcases visit_chain (List.isChain_append.mp hchain).1 hrest hn with heq | ⟨last, m, hlast, hgo, -⟩
  · exact heq
  -- the successor of the last entry is the first
  · have hback : next last = a := by
      obtain ⟨init, hinit⟩ := List.getLast?_eq_some_iff.mp hlast
      rw [hinit, List.append_assoc] at hchain
      have := (List.isChain_append.mp hchain).2.1
      simpa using this
    rw [hback] at hgo
    exact absurd ((hstop a (List.mem_cons_self ..)).mpr rfl) hgo

end Furnace.Lib
