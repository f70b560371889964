import Furnace.Fac.StoreMap

namespace Furnace.Fac

open Furnace.Lib Furnace.Lib.PyText

/-!
# What a failed `SET` leaves behind

`process_set` charges, removes and enters under one `except`, and takes nothing back.  So what
a request that is answered with a failure leaves depends on the file operation that failed.

* `Untouched` — the dictionary, the accounting and all values are as they were.
* `tryStore_cases` — what the `try` block can do, by the file operation that fails.
* `Numbered`, `numbered_reach` — live numbers are used ones, whatever fails.
* `failed_set_untouched_iff` — **the failures after which nothing has changed**.
-/

/-- The dictionary, the accounting and all values are as they were. -/
structure Untouched (f f' : Facilities) : Prop where
  storage : ∀ key, f'.storage.lookup key = f.storage.lookup key
  diskUsage : f'.diskUsage = f.diskUsage
  contents : ∀ key, contents f' key = contents f key

/-- A `SET` that is answered with a failure changes nothing. -/
def FailsUntouched (env : Env) (m : SetMsg) (f : Facilities) : Prop :=
  ∀ f', processSet env m f = .ok f' → lastSetRet f' = some ⟨.str m.key.toStr, vmiFailure⟩ →
    Untouched f f'

/-- The value of a key is what a `GET` is answered with when its read succeeds. -/
theorem contents_eq_some_iff {env : Env} (henv : env.Reliable) {f : Facilities} {key value : Str}
    (hname : nameOk env key = true) :
    contents f key = some value ↔ ∃ f', processGet env ⟨.str key⟩ f = .ok f' ∧
      f'.fmsgOut.getRet = f.fmsgOut.getRet ++ [⟨.str key, .str value, vmiSuccess⟩] := by
  constructor
  · intro hval
    obtain ⟨f', hget, hout⟩ := processGet_of_contents henv hname hval
    exact ⟨f', hget, by rw [hout]; rfl⟩
  · rintro ⟨f', hget, hout⟩
    obtain ⟨value', ⟨-, id, b, hid, hfile, hdec⟩, rfl⟩ := (processGet_eq_ok hname).mp hget
    have hret : (⟨.str key, .str value', vmiSuccess⟩ : GetRet) =
        ⟨.str key, .str value, vmiSuccess⟩ := List.singleton_inj.mp (List.append_cancel_left hout)
    cases hret
    have hid : f.storage.lookup key = some id := hid
    simp [contents, hid, hfile, hdec]

/-! ### The second half of the `try` block -/

variable {env : Env} {f : Facilities} {key value : Str}

theorem writeFile_storage (env : Env) (id : ℕ) (b : Bytes) (f : Facilities) :
    (f.writeFile env id b).2.storage = f.storage ∧ (f.writeFile env id b).2.ioId = f.ioId := by
  rw [Facilities.writeFile]
  split
  · exact ⟨rfl, rfl⟩
  · exact ⟨rfl, rfl⟩
  · exact ⟨rfl, rfl⟩

/-- The entry is there, whether the file is written or not. -/
theorem writeNew_storage (env : Env) (key value : Str) (f : Facilities) :
    (writeNew env key value f).2.storage = f.storage.insert key f.ioId ∧
      (writeNew env key value f).2.ioId = f.ioId + 1 :=
  writeFile_storage env f.ioId (Utf8.encode value) _

theorem writeNew_stored_iff :
    (writeNew env key value f).1 = true ↔ env.fault f.fileOps = none := by
  rw [writeNew, Facilities.writeFile]
  cases env.fault f.fileOps with
  | none => simp
  | some left => cases left <;> simp

/-! ### An overwritten key -/

/-- `getsize` fails, or the file is not there. -/
theorem tryStore_getsize_fails {id : ℕ} (hkey : f.storage.lookup key = some id)
    (h : env.fault f.fileOps ≠ none ∨ f.files.lookup id = none) :
    tryStore env key value f = (false, { f with fileOps := f.fileOps + 1 }) := by
  have hsize : f.getsize env id = (none, { f with fileOps := f.fileOps + 1 }) := by
    rw [Facilities.getsize]
    rcases h with h | h
    · rw [if_neg h]
    · simp [h]
  rw [tryStore, hkey]
  dsimp only
  rw [hsize]

/-- The state when the old file has been looked at and refunded. -/
def refunded (f : Facilities) (b : Bytes) : Facilities :=
  { f with diskUsage := f.diskUsage - b.length, fileOps := f.fileOps + 2 }

/-- `remove` fails. -/
theorem tryStore_remove_fails {id : ℕ} {b : Bytes} (hkey : f.storage.lookup key = some id)
    (hsize : env.fault f.fileOps = none) (hfile : f.files.lookup id = some b)
    (hremove : env.fault (f.fileOps + 1) ≠ none) :
    tryStore env key value f = (false, refunded f b) := by
  rw [tryStore, hkey]
  simp [Facilities.getsize, Facilities.remove, hsize, hfile, hremove, refunded]

/-- The state when the old file and the entry are gone. -/
def freed (f : Facilities) (key : Str) (id : ℕ) (b : Bytes) : Facilities :=
  { refunded f b with files := f.files.erase id, storage := f.storage.erase key }

/-- `remove` succeeds. -/
theorem tryStore_removed {id : ℕ} {b : Bytes} (hkey : f.storage.lookup key = some id)
    (hsize : env.fault f.fileOps = none) (hfile : f.files.lookup id = some b)
    (hremove : env.fault (f.fileOps + 1) = none) :
    tryStore env key value f = writeNew env key value (freed f key id b) := by
  have hmem : id ∈ f.files := mem_of_lookup hfile
  rw [tryStore, hkey]
  simp [Facilities.getsize, Facilities.remove, hsize, hfile, hremove, hmem, refunded, freed]

/-- The second half of the block starts in `g`: the key is free, and what came before went
    well. -/
structure Cleared (env : Env) (key : Str) (f g : Facilities) : Prop where
  storage : ∀ key' id, g.storage.lookup key' = some id → f.storage.lookup key' = some id
  ioId : g.ioId = f.ioId
  fileOps : g.fileOps = f.fileOps + if key ∈ f.storage then 2 else 0
  passed : key ∈ f.storage → env.fault f.fileOps = none ∧ env.fault (f.fileOps + 1) = none
  file : ∀ id, f.storage.lookup key = some id → f.files.lookup id ≠ none

/-- **What the `try` block does**: it stops at `getsize`, it stops at `remove`, or it comes to
    its second half. -/
theorem tryStore_cases (env : Env) (f : Facilities) (key value : Str) :
    (∃ id, f.storage.lookup key = some id ∧
        (env.fault f.fileOps ≠ none ∨ f.files.lookup id = none) ∧
        tryStore env key value f = (false, { f with fileOps := f.fileOps + 1 })) ∨
      (∃ id b, f.storage.lookup key = some id ∧ env.fault f.fileOps = none ∧
        f.files.lookup id = some b ∧ env.fault (f.fileOps + 1) ≠ none ∧
        tryStore env key value f = (false, refunded f b)) ∨
      ∃ g, Cleared env key f g ∧ tryStore env key value f = writeNew env key value g := by
  cases hkey : f.storage.lookup key with
  | none =>
    have hfree : key ∉ f.storage := AList.lookup_eq_none.mp hkey
    refine .inr (.inr ⟨f, ⟨fun _ _ h => h, rfl, ?_, fun h => absurd h hfree, ?_⟩, ?_⟩)
    · rw [if_neg hfree, Nat.add_zero]
    · simp [hkey]
    · rw [tryStore, hkey]
  | some id =>
    by_cases hsize : env.fault f.fileOps ≠ none ∨ f.files.lookup id = none
    · exact .inl ⟨id, rfl, hsize, tryStore_getsize_fails hkey hsize⟩
    obtain ⟨hsize, hfile⟩ := not_or.mp hsize
    have hsize : env.fault f.fileOps = none := not_not.mp hsize
    obtain ⟨b, hfile⟩ := Option.ne_none_iff_exists'.mp hfile
    by_cases hremove : env.fault (f.fileOps + 1) = none
    · have hmem : key ∈ f.storage := mem_of_lookup hkey
      refine .inr (.inr ⟨freed f key id b, ⟨fun key' id' h => ?_, rfl, ?_,
        fun _ => ⟨hsize, hremove⟩, ?_⟩, tryStore_removed hkey hsize hfile hremove⟩)
      · exact (lookup_erase_eq_some.mp h).2
      · rw [if_pos hmem]
        rfl
      · intro id' hid'
        rw [hkey] at hid'
        cases hid'
        simp [hfile]
    · exact .inr (.inl ⟨id, b, rfl, hsize, hfile, hremove,
        tryStore_remove_fails hkey hsize hfile hremove⟩)

/-! ### Numbers -/

/-- Live numbers were handed out before. -/
def Numbered (f : Facilities) : Prop :=
  ∀ key id, f.storage.lookup key = some id → id < f.ioId

/-- The `try` block keeps the numbers, whatever fails. -/
theorem Numbered.tryStore (hn : Numbered f) (env : Env) (key value : Str) :
    Numbered (tryStore env key value f).2 := by
  obtain ⟨id, -, -, heq⟩ | ⟨id, b, -, -, -, -, heq⟩ | ⟨g, hg, heq⟩ := tryStore_cases env f key value
  · rw [heq]
    exact hn
  · rw [heq]
    exact hn
  · obtain ⟨hstorage, hid⟩ := writeNew_storage env key value g
    rw [heq]
    intro key' id hlookup
    rw [hstorage] at hlookup
    rw [hid, hg.ioId]
    rcases lookup_insert_eq_some.mp hlookup with ⟨-, rfl⟩ | ⟨-, hold⟩
    · rw [hg.ioId]
      omega
    · have hlt := hn key' id (hg.storage key' id hold)
      omega

theorem SameStore.numbered {f f' : Facilities} (h : SameStore f f') (hn : Numbered f) :
    Numbered f' := by
  obtain ⟨hs, -, hid, -⟩ := h
  intro key id hlookup
  rw [hs] at hlookup
  rw [hid]
  exact hn key id hlookup

/-- **Live numbers are used ones** in every state that a run reaches, whatever file operations
    fail on the way. -/
theorem numbered_reach {env : Env} {s : StoreRun}
    (hr : Reach (storeSystem env) (fun _ _ => True) s) : Numbered s.fac := by
  refine hr.invariant (fun s => Numbered s.fac) ?_ ?_
  · rintro s ⟨quota, files, rfl⟩ key id hlookup
    cases hlookup
  · rintro s a s' hn - ⟨hserve, -⟩
    cases a with
    | clear =>
      have hf : s'.fac = { s.fac with fmsgOut := {} } := (Except.ok.inj hserve).symm
      rw [hf]
      exact hn
    | get m => exact (processGet_sameStore hserve).numbered hn
    | set m =>
      cases hname : nameOk env m.key.toStr with
      | false =>
        have hraise := (processSet_refused hname s.fac).symm.trans hserve
        cases hraise
      | true =>
        have hf := Except.ok.inj ((processSet_accepted hname s.fac).symm.trans hserve)
        rw [← hf]
        split_ifs
        · exact (sameStore_answerSet _ _ _).numbered hn
        · exact (sameStore_answerSet _ _ _).numbered (hn.tryStore env _ _)
        · exact (sameStore_answerSet _ _ _).numbered (hn.tryStore env _ _)

/-! ### Failures that change nothing -/

/-- No file operation of the request fails; or the key is stored and `getsize` fails, if only
    because the file is missing; or its file is empty and `remove` fails. -/
def Harmless (env : Env) (key : Str) (f : Facilities) : Prop :=
  (∀ i < if key ∈ f.storage then 3 else 1, env.fault (f.fileOps + i) = none) ∨
    ∃ id, f.storage.lookup key = some id ∧
      (env.fault f.fileOps ≠ none ∨ f.files.lookup id = none ∨
        f.files.lookup id = some [] ∧ env.fault (f.fileOps + 1) ≠ none)

/-- The old size has been given back, which no value feels when it is 0. -/
theorem untouched_refunded_iff (f : Facilities) (b : Bytes) :
    Untouched f (refunded f b) ↔ b = [] := by
  constructor
  · intro h
    have hdisk : f.diskUsage - b.length = f.diskUsage := h.diskUsage
    exact List.length_eq_zero_iff.mp (by omega)
  · rintro rfl
    refine ⟨fun _ => rfl, ?_, fun _ => rfl⟩
    show f.diskUsage - 0 = f.diskUsage
    omega

/-- Where `getsize` and `remove` went well, only a failing write can do harm. -/
theorem Cleared.harmless_iff {g : Facilities} (hg : Cleared env key f g) :
    Harmless env key f ↔ env.fault g.fileOps = none := by
  rw [hg.fileOps]
  constructor
  · rintro (hnone | ⟨id, hkey, h⟩)
    · split_ifs at hnone ⊢ with hmem
      · exact hnone 2 (by omega)
      · exact hnone 0 (by omega)
    · exfalso
      obtain ⟨h₀, h₁⟩ := hg.passed (mem_of_lookup hkey)
      rcases h with h | h | ⟨-, h⟩
      · exact h h₀
      · exact hg.file id hkey h
      · exact h h₁
  · intro hwrite
    refine .inl fun i hi => ?_
    split_ifs at hi hwrite with hmem
    · obtain ⟨h₀, h₁⟩ := hg.passed hmem
      match i, hi with
      | 0, _ => exact h₀
      | 1, _ => exact h₁
      | 2, _ => exact hwrite
    · match i, hi with
      | 0, _ => exact hwrite

/-- A write that fails has entered a new number. -/
theorem Cleared.not_untouched {g : Facilities} (hg : Cleared env key f g) (hn : Numbered f) :
    ¬ Untouched f (writeNew env key value g).2 := by
  intro h
  have hnew := h.storage key
  rw [(writeNew_storage env key value g).1, AList.lookup_insert, hg.ioId] at hnew
  exact absurd (hn key _ hnew.symm) (by omega)

/-- The `try` block, if it fails. -/
theorem tryStore_untouched_iff (env : Env) (key value : Str) (hn : Numbered f) :
    ((tryStore env key value f).1 = false → Untouched f (tryStore env key value f).2) ↔
      Harmless env key f := by
  obtain ⟨id, hkey, hsize, heq⟩ | ⟨id, b, hkey, hsize, hfile, hremove, heq⟩ | ⟨g, hg, heq⟩ :=
    tryStore_cases env f key value
  · rw [heq]
    refine iff_of_true (fun _ => ⟨fun _ => rfl, rfl, fun _ => rfl⟩) (.inr ⟨id, hkey, ?_⟩)
    rcases hsize with hsize | hfile
    · exact .inl hsize
    · exact .inr (.inl hfile)
  · rw [heq]
    constructor
    · intro h
      obtain rfl := (untouched_refunded_iff f b).mp (h rfl)
      exact .inr ⟨id, hkey, .inr (.inr ⟨hfile, hremove⟩)⟩
    · rintro (hnone | ⟨id', hkey', h⟩) -
      · rw [if_pos (mem_of_lookup hkey)] at hnone
        exact absurd (hnone 1 (by omega)) hremove
      · rw [hkey] at hkey'
        cases hkey'
        rw [hfile] at h
        rcases h with h | h | ⟨h, -⟩
        · exact absurd hsize h
        · cases h
        · exact (untouched_refunded_iff f b).mpr (Option.some.inj h)
  · have hstored : (writeNew env key value g).1 = true ↔ env.fault g.fileOps = none :=
      writeNew_stored_iff
    rw [heq, hg.harmless_iff, ← hstored]
    constructor
    · intro h
      by_contra hfails
      exact hg.not_untouched hn (h (by simpa using hfails))
    · intro htrue hfails
      rw [htrue] at hfails
      cases hfails

/-- **A failed `SET`.** In every state that requests reach, whatever file operations have failed
    and will fail: a `SET` changes nothing when it is answered with a failure, if and only if
    its key is refused, so that it is not answered, or it is over the quota, or the operations
    that fail do no harm. -/
theorem failed_set_untouched_iff {s : StoreRun}
    (hr : Reach (storeSystem env) (fun _ _ => True) s) (m : SetMsg) :
    FailsUntouched env m s.fac ↔ nameOk env m.key.toStr = false ∨
      exceeds s.fac m.value.toStr = true ∨ Harmless env m.key.toStr s.fac := by
  have hn : Numbered s.fac := numbered_reach hr
  rw [FailsUntouched]
  cases hname : nameOk env m.key.toStr with
  | false =>
    refine iff_of_true (fun f' h _ => ?_) (.inl rfl)
    rw [processSet_refused hname] at h
    cases h
  | true =>
    rw [processSet_accepted hname]
    cases hex : exceeds s.fac m.value.toStr with
    | true =>
      refine iff_of_true (fun f' h _ => ?_) (.inr (.inl rfl))
      cases h
      exact ⟨fun _ => rfl, rfl, fun _ => rfl⟩
    | false =>
      have hiff := tryStore_untouched_iff env m.key.toStr m.value.toStr hn
      constructor
      · intro h
        refine .inr (.inr (hiff.mp fun hfails => ?_))
        obtain ⟨hs, hd, hc⟩ := h _ rfl (by simp [hfails])
        exact ⟨hs, hd, hc⟩
      · rintro (h | h | h) f' hset hlast
        · cases h
        · cases h
        · cases hset
          have hfails : (tryStore env m.key.toStr m.value.toStr s.fac).1 = false := by
            simpa [vmiSuccess, vmiFailure] using hlast
          obtain ⟨hs, hd, hc⟩ := hiff.mpr h hfails
          exact ⟨hs, hd, hc⟩

/-- An environment in which one file operation fails. -/
def faultyEnv (n : ℕ) : Env := { ackEnv with fault := fun i => if i = n then some none else none }

/-- `storedRun`, in which a later operation may fail. -/
theorem reach_storedRun {n : ℕ} (hn : 0 < n) :
    Reach (storeSystem (faultyEnv n)) (fun _ _ => True) storedRun := by
  have hinit : Reach (storeSystem (faultyEnv n)) (fun _ _ => True) ⟨.fresh 100 ∅, []⟩ :=
    .init ⟨100, ∅, rfl⟩
  have hfault : (faultyEnv n).fault 0 = none := if_neg (by omega)
  refine .step (a := .set ⟨.str ['a'], .str ['x']⟩) hinit trivial ⟨?_, by decide⟩
  rw [serve, processSet_accepted (by rfl), if_neg (by decide)]
  have hwrite : tryStore (faultyEnv n) ['a'] ['x'] (.fresh 100 ∅) =
      (true, store ['a'] ['x'] 1 (.fresh 100 ∅)) := by
    show Facilities.writeFile (faultyEnv n) 0 (Utf8.encode ['x']) _ = _
    rw [Facilities.writeFile]
    dsimp only [Facilities.fresh]
    rw [hfault]
    rfl
  show Except.ok (answerSet ['a'] (if (tryStore (faultyEnv n) ['a'] ['x'] _).1 then _ else _)
    (tryStore (faultyEnv n) ['a'] ['x'] _).2) = _
  rw [hwrite]
  rfl

/-- When `getsize` fails, a `SET` over a stored value fails and changes nothing. -/
theorem failed_set_untouched_stored : ∃ f',
    processSet (faultyEnv 1) ⟨.str ['a'], .str ['y']⟩ storedRun.fac = .ok f' ∧
      lastSetRet f' = some ⟨.str ['a'], vmiFailure⟩ ∧ Untouched storedRun.fac f' ∧
      contents f' ['a'] = some ['x'] := by
  have hset : ∃ f', processSet (faultyEnv 1) ⟨.str ['a'], .str ['y']⟩ storedRun.fac = .ok f' ∧
      lastSetRet f' = some ⟨.str ['a'], vmiFailure⟩ := ⟨_, rfl, by decide⟩
  obtain ⟨f', hset, hlast⟩ := hset
  have hharmless : Harmless (faultyEnv 1) ['a'] storedRun.fac :=
    .inr ⟨0, by decide, .inl (by decide)⟩
  have hsame := (failed_set_untouched_iff (reach_storedRun (by decide)) _).mpr
    (.inr (.inr hharmless)) f' hset hlast
  have hbefore : contents storedRun.fac ['a'] = some ['x'] := by decide
  exact ⟨f', hset, hlast, hsame, (hsame.contents ['a']).trans hbefore⟩

/-- The state after `SET a = y`, which overwrites a value. -/
def afterOverwrite (n : ℕ) : Facilities :=
  answerSet ['a'] vmiFailure (tryStore (faultyEnv n) ['a'] ['y'] storedRun.fac).2

/-- **What failures leave.** When the write fails the old value is gone, and when `remove` fails
    the old size has been given back; a new key that cannot be written stays in the
    dictionary. -/
theorem failed_set_touches :
    (Reach (storeSystem (faultyEnv 3)) (fun _ _ => True) storedRun ∧
      processSet (faultyEnv 3) ⟨.str ['a'], .str ['y']⟩ storedRun.fac = .ok (afterOverwrite 3) ∧
      lastSetRet (afterOverwrite 3) = some ⟨.str ['a'], vmiFailure⟩ ∧
      contents storedRun.fac ['a'] = some ['x'] ∧ contents (afterOverwrite 3) ['a'] = none) ∧
    (processSet (faultyEnv 2) ⟨.str ['a'], .str ['y']⟩ storedRun.fac = .ok (afterOverwrite 2) ∧
      lastSetRet (afterOverwrite 2) = some ⟨.str ['a'], vmiFailure⟩ ∧
      storedRun.fac.diskUsage = 1 ∧ (afterOverwrite 2).diskUsage = 0) ∧
    (∃ f', processSet (faultyEnv 0) ⟨.str ['a'], .str ['x']⟩ (.fresh 100 ∅) = .ok f' ∧
      lastSetRet f' = some ⟨.str ['a'], vmiFailure⟩ ∧ f'.storage.lookup ['a'] = some 0) ∧
    ¬ ∀ (env : Env) (s : StoreRun) (m : SetMsg), Reach (storeSystem env) (fun _ _ => True) s →
      FailsUntouched env m s.fac := by
  have hset : processSet (faultyEnv 3) ⟨.str ['a'], .str ['y']⟩ storedRun.fac =
      .ok (afterOverwrite 3) := by rfl
  have hlast : lastSetRet (afterOverwrite 3) = some ⟨.str ['a'], vmiFailure⟩ := by decide
  have hbefore : contents storedRun.fac ['a'] = some ['x'] := by decide
  have hafter : contents (afterOverwrite 3) ['a'] = none := by decide
  refine ⟨⟨reach_storedRun (by decide), hset, hlast, hbefore, hafter⟩,
    ⟨by rfl, by decide, by decide, by decide⟩, ⟨_, rfl, by decide, by decide⟩, fun h => ?_⟩
  have hsame := (h (faultyEnv 3) storedRun _ (reach_storedRun (by decide)) _ hset hlast).contents
    ['a']
  rw [hafter, hbefore] at hsame
  cases hsame

end Furnace.Fac
