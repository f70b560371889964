import Mathlib.Data.List.Count
import Mathlib.Data.List.TakeDrop
import Mathlib.Logic.Function.Basic

namespace Furnace.Lib

/-!
# Tagged sequences and their buckets

A sequence of tagged values, sent through one channel and sorted into one bucket per tag,
keeps the order inside each bucket.  So the value at position `i` of the sequence is found
again in the bucket of its tag, at the position that counts how often the tag occurred
before `i`.

* `bucket k xs` — the values of `xs` tagged `k`, in order.
* `countBefore k ks i` — how many of the first `i` tags equal `k`.
* `bucket_count` — the value at `i` is found in its bucket at that count.
* `position` / `bucket_getElem?` — conversely, entry `j` of bucket `k` comes from the
  position of the `j`-th occurrence of `k`.
-/

variable {κ ν : Type*} [DecidableEq κ]

/-- The values of `xs` tagged `k`, in the order they occur. -/
def bucket (k : κ) : List (κ × ν) → List ν
  | [] => []
  | x :: xs => if x.1 = k then x.2 :: bucket k xs else bucket k xs

@[simp] theorem bucket_nil (k : κ) : bucket k ([] : List (κ × ν)) = [] := rfl

theorem bucket_cons (k : κ) (x : κ × ν) (xs : List (κ × ν)) :
    bucket k (x :: xs) = if x.1 = k then x.2 :: bucket k xs else bucket k xs := rfl

@[simp] theorem bucket_append (k : κ) (xs ys : List (κ × ν)) :
    bucket k (xs ++ ys) = bucket k xs ++ bucket k ys := by
  induction xs with
  | nil => rfl
  | cons x xs ih =>
    simp only [List.cons_append, bucket_cons, ih]
    split <;> simp

/-- A bucket of blocks. -/
theorem bucket_flatMap {α : Type*} (k : κ) (xs : List α) (f : α → List (κ × ν)) :
    bucket k (xs.flatMap f) = xs.flatMap fun x => bucket k (f x) := by
  induction xs with
  | nil => rfl
  | cons x xs ih => simp [ih]

/-- A bucket has as many entries as its tag has occurrences. -/
theorem length_bucket (k : κ) (xs : List (κ × ν)) :
    (bucket k xs).length = (xs.map Prod.fst).count k := by
  induction xs with
  | nil => rfl
  | cons x xs ih =>
    rw [bucket_cons, List.map_cons, List.count_cons]
    by_cases h : x.1 = k <;> simp [h, ih]

/-- How many of the first `i` tags equal `k`. -/
def countBefore (k : κ) (ks : List κ) (i : ℕ) : ℕ := (ks.take i).count k

@[simp] theorem countBefore_zero (k : κ) (ks : List κ) : countBefore k ks 0 = 0 := by
  simp [countBefore]

@[simp] theorem countBefore_cons_succ (k x : κ) (ks : List κ) (i : ℕ) :
    countBefore k (x :: ks) (i + 1) = countBefore k ks i + if x = k then 1 else 0 := by
  simp [countBefore, List.count_cons]

/-- A tag occurs before a position as often as its bucket says. -/
theorem countBefore_append (k : κ) (xs ys : List (κ × ν)) :
    countBefore k ((xs ++ ys).map Prod.fst) xs.length = (bucket k xs).length := by
  rw [countBefore, List.map_append, List.take_left' (by simp), length_bucket]

/-- **Positions survive the sorting.** The value behind a part of the sequence is the entry of its
    bucket that the part counts. -/
theorem bucket_count {k : κ} {v : ν} (xs ys : List (κ × ν)) :
    (bucket k (xs ++ (k, v) :: ys))[(xs.map Prod.fst).count k]? = some v := by
  rw [bucket_append, ← length_bucket, List.getElem?_append_right (Nat.le_refl _), bucket_cons]
  simp

/-- The counters of the tags, after one more value. -/
theorem update_count (xs : List (κ × ν)) (k : κ) (v : ν) :
    Function.update (fun k => (xs.map Prod.fst).count k) k ((xs.map Prod.fst).count k + 1) =
      fun k' => ((xs ++ [(k, v)]).map Prod.fst).count k' := by
  funext k'
  by_cases hk : k' = k
  · subst hk
    simp
  · have hk' : ¬k = k' := fun h => hk h.symm
    simp [hk, hk']

/-- The position of the `j`-th occurrence of the tag `k`, if there is one. -/
def position (k : κ) : List κ → ℕ → Option ℕ
  | [], _ => none
  | x :: ks, 0 => if x = k then some 0 else (position k ks 0).map (· + 1)
  | x :: ks, j + 1 =>
    if x = k then (position k ks j).map (· + 1) else (position k ks (j + 1)).map (· + 1)

/-- A first tag other than `k` shifts every position of `k` by one. -/
theorem position_cons_ne {k x : κ} (hx : x ≠ k) (ks : List κ) (j : ℕ) :
    position k (x :: ks) j = (position k ks j).map (· + 1) := by
  cases j <;> simp [position, hx]

/-- Entry `j` of bucket `k` is the value at the position of the `j`-th occurrence of `k`. -/
theorem bucket_getElem? (k : κ) (xs : List (κ × ν)) (j : ℕ) :
    (bucket k xs)[j]? = (position k (xs.map Prod.fst) j).bind (fun i => (xs[i]?).map Prod.snd) := by
  induction xs generalizing j with
  | nil => simp [position]
  | cons x xs ih =>
    rw [bucket_cons, List.map_cons]
    -- a first value with the tag is entry 0 of its bucket; others only shift the positions
    by_cases hx : x.1 = k
    · rw [if_pos hx]
      cases j with
      | zero => simp [position, hx]
      | succ j =>
        rw [List.getElem?_cons_succ, ih j, position, if_pos hx, Option.bind_map]
        rfl
    · rw [if_neg hx, position_cons_ne hx, ih j, Option.bind_map]
      rfl

/-- The position of an occurrence carries the tag, and counts the right number before it. -/
theorem position_eq_some {k : κ} {ks : List κ} {j i : ℕ} (h : position k ks j = some i) :
    ks[i]? = some k ∧ countBefore k ks i = j := by
  induction ks generalizing j i with
  | nil => simp [position] at h
  | cons x ks ih =>
    -- an occurrence in front has rank 0; the others come from the rest, one further
    by_cases hx : x = k
    · cases j with
      | zero =>
        simp only [position, if_pos hx, Option.some.injEq] at h
        subst h
        simp [hx]
      | succ j =>
        simp only [position, if_pos hx, Option.map_eq_some_iff] at h
        obtain ⟨i', hi', rfl⟩ := h
        obtain ⟨hk, hc⟩ := ih hi'
        exact ⟨by simpa using hk, by simp [hc, hx]⟩
    · rw [position_cons_ne hx, Option.map_eq_some_iff] at h
      obtain ⟨i', hi', rfl⟩ := h
      obtain ⟨hk, hc⟩ := ih hi'
      exact ⟨by simpa using hk, by simp [hc, hx]⟩

/-- Entry `d` of block `i`, when all blocks have the same length. -/
theorem getElem?_flatMap {α β : Type*} {f : α → List β} {n : ℕ} (hf : ∀ x, (f x).length = n)
    (xs : List α) (i : ℕ) {d : ℕ} (hd : d < n) :
    (xs.flatMap f)[n * i + d]? = (xs[i]?).bind fun x => (f x)[d]? := by
  induction xs generalizing i with
  | nil => simp
  | cons x xs ih =>
    rw [List.flatMap_cons]
    cases i with
    | zero =>
      rw [List.getElem?_append_left (by rw [hf]; omega)]
      simp
    | succ i =>
      have hpos : n * (i + 1) + d = n * i + d + (f x).length := by
        rw [hf, Nat.mul_succ]
        omega
      rw [hpos, List.getElem?_append_right (by omega), Nat.add_sub_cancel, ih,
        List.getElem?_cons_succ]

end Furnace.Lib
