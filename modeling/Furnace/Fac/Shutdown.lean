import Furnace.Fac.SetFailure

namespace Furnace.Fac

open Furnace.Lib Furnace.Lib.PyText Facilities

/-!
# The end of the facilities runtime

`shutdown` removes the files of all keys, one after the other.  It is called when the runtime is
interrupted, and again when the process exits, however that comes about; the second call does
nothing.

* `shutdown` — the removals, and whether one of them raises.
* `Owned` — what holds of the files after any requests, whatever file operations failed: those
  that the runtime has written belong to keys.
* `shutdown_removes` — **when the shutdown comes to its end**, and what it leaves.
-/

/-! ### The removals -/

/-- The loop over `self.storage`, whose order is that of the insertions. -/
def removeFiles (env : Env) : List ℕ → Facilities → Facilities × Option PyError
  | [], f => (f, none)
  | id :: ids, f =>
    match f.remove env id with
    | (true, f) => removeFiles env ids f
    | (false, f) => (f, some .osError)

/-- The numbers of the files of all keys. -/
def liveIds (f : Facilities) : List ℕ := f.storage.entries.reverse.map Sigma.snd

/-- The runtime with its `already_shutdown`. -/
structure Runtime where
  fac : Facilities
  alreadyShutdown : Bool := false

/-- `shutdown`, up to the sockets. -/
def shutdown (env : Env) (r : Runtime) : Runtime × Option PyError :=
  if r.alreadyShutdown then (r, none)
  else
    let p := removeFiles env (liveIds r.fac) r.fac
    (⟨p.1, true⟩, p.2)

variable {env : Env} {f f' : Facilities} {files : AList fun _ : ℕ => Bytes}

/-- **What the loop does**: it removes the files that it comes to, and raises at the first that it
    cannot remove, which is not there or whose removal fails. -/
theorem removeFiles_spec (env : Env) (ids : List ℕ) (f : Facilities) : ∃ before after,
    ids = before ++ after ∧ ((removeFiles env ids f).2 = none ↔ after = []) ∧
    (∀ id rest, after = id :: rest → env.fault (f.fileOps + before.length) ≠ none ∨
      (removeFiles env ids f).1.files.lookup id = none) ∧
    ∀ id, (removeFiles env ids f).1.files.lookup id =
      if id ∈ before then none else f.files.lookup id := by
  induction ids generalizing f with
  | nil => exact ⟨[], [], rfl, by simp [removeFiles], nofun, fun id => rfl⟩
  | cons id ids ih =>
    by_cases hremove : env.fault f.fileOps = none ∧ id ∈ f.files
    · have hstep : f.remove env id = (true, { f with
          files := f.files.erase id, fileOps := f.fileOps + 1 }) := if_pos hremove
      obtain ⟨before, after, hids, hend, hstops, hfiles⟩ := ih { f with
        files := f.files.erase id, fileOps := f.fileOps + 1 }
      rw [removeFiles, hstep]
      refine ⟨id :: before, after, by rw [hids]; rfl, hend, fun i rest hafter => ?_, fun i => ?_⟩
      · have hcount : f.fileOps + (id :: before).length = f.fileOps + 1 + before.length := by
          rw [List.length_cons]
          omega
        rw [hcount]
        exact hstops i rest hafter
      rw [hfiles i]
      by_cases hi : i = id
      · subst hi
        simp [AList.lookup_erase]
      · simp [AList.lookup_erase_ne hi, hi]
    · have hstep : f.remove env id = (false, { f with fileOps := f.fileOps + 1 }) :=
        if_neg hremove
      rw [removeFiles, hstep]
      refine ⟨[], id :: ids, rfl, by simp, fun i rest hafter => ?_, fun i => rfl⟩
      cases hafter
      rcases not_and_or.mp hremove with hfault | hfile
      · exact .inl hfault
      · exact .inr (AList.lookup_eq_none.mpr hfile)

/-- The loop comes to its end if no operation fails and every file is there. -/
theorem removeFiles_ok_iff {ids : List ℕ} (hnodup : ids.Nodup) (f : Facilities) :
    (removeFiles env ids f).2 = none ↔
      (∀ i < ids.length, env.fault (f.fileOps + i) = none) ∧ ∀ id ∈ ids, id ∈ f.files := by
  induction ids generalizing f with
  | nil => simp [removeFiles]
  | cons id ids ih =>
    obtain ⟨hid, hnodup⟩ := List.nodup_cons.mp hnodup
    by_cases hremove : env.fault f.fileOps = none ∧ id ∈ f.files
    · have hstep : f.remove env id = (true, { f with
          files := f.files.erase id, fileOps := f.fileOps + 1 }) := if_pos hremove
      rw [removeFiles, hstep]
      refine (ih hnodup _).trans ⟨?_, ?_⟩
      · rintro ⟨hfault, hfiles⟩
        refine ⟨fun i hi => ?_, fun j hj => ?_⟩
        · cases i with
          | zero => exact hremove.1
          | succ i =>
            have := hfault i (Nat.lt_of_succ_lt_succ hi)
            rwa [show f.fileOps + (i + 1) = f.fileOps + 1 + i by omega]
        · rcases List.mem_cons.mp hj with rfl | hj
          · exact hremove.2
          · exact (AList.mem_erase.mp (hfiles j hj)).2
      · rintro ⟨hfault, hfiles⟩
        refine ⟨fun i hi => ?_, fun j hj => AList.mem_erase.mpr ⟨?_, ?_⟩⟩
        · have := hfault (i + 1) (Nat.succ_lt_succ hi)
          rwa [show f.fileOps + (i + 1) = f.fileOps + 1 + i by omega] at this
        · rintro rfl
          exact hid hj
        · exact hfiles j (List.mem_cons_of_mem _ hj)
    · have hstep : f.remove env id = (false, { f with fileOps := f.fileOps + 1 }) :=
        if_neg hremove
      rw [removeFiles, hstep]
      refine ⟨nofun, fun h => absurd ⟨?_, ?_⟩ hremove⟩
      · exact h.1 0 (Nat.succ_pos _)
      · exact h.2 id (List.mem_cons_self ..)

/-! ### Files and keys -/

/-- No two keys have one number, the numbered files of the runtime belong to keys, and the others
    are those that were there from the start. -/
structure Owned (files : AList fun _ : ℕ => Bytes) (f : Facilities) : Prop where
  numbered : Numbered f
  inj : ∀ key key' id, f.storage.lookup key = some id → f.storage.lookup key' = some id →
    key = key'
  owned : ∀ id ∈ f.files, id < f.ioId → ∃ key, f.storage.lookup key = some id
  rest : ∀ id, f.ioId ≤ id → f.files.lookup id = files.lookup id

/-- What does not touch the store keeps this. -/
theorem Owned.of_same (h : Owned files f) (hstorage : f'.storage = f.storage)
    (hfiles : f'.files = f.files) (hid : f'.ioId = f.ioId) : Owned files f' := by
  obtain ⟨hnumbered, hinj, howned, hrest⟩ := h
  constructor
  · intro key id hlookup
    rw [hstorage] at hlookup
    rw [hid]
    exact hnumbered key id hlookup
  · rw [hstorage]
    exact hinj
  · rw [hstorage, hfiles, hid]
    exact howned
  · rw [hfiles, hid]
    exact hrest

theorem mem_liveIds (f : Facilities) (id : ℕ) :
    id ∈ liveIds f ↔ ∃ key, f.storage.lookup key = some id := by
  unfold liveIds
  simp only [List.mem_map, List.mem_reverse]
  constructor
  · rintro ⟨⟨key, id⟩, hmem, rfl⟩
    exact ⟨key, AList.mem_lookup_iff.mpr hmem⟩
  · rintro ⟨key, hlookup⟩
    exact ⟨⟨key, id⟩, AList.mem_lookup_iff.mp hlookup, rfl⟩

theorem Owned.nodup (h : Owned files f) : (liveIds f).Nodup := by
  have hentries : f.storage.entries.reverse.Nodup :=
    List.nodup_reverse.mpr (List.NodupKeys.nodup f.storage.nodupKeys)
  refine List.Nodup.map_on ?_ hentries
  rintro ⟨key, id⟩ he ⟨key', id'⟩ he' heq
  obtain rfl : id = id' := heq
  have hkey := AList.mem_lookup_iff.mpr (List.mem_reverse.mp he)
  have hkey' := AList.mem_lookup_iff.mpr (List.mem_reverse.mp he')
  obtain rfl := h.inj key key' id hkey hkey'
  rfl

/-- A new number gets a key, also when its file is not written, or only in part. -/
theorem Owned.writeNew (h : Owned files f) {key : Str} (hkey : key ∉ f.storage) (value : Str) :
    Owned files (writeNew env key value f).2 := by
  obtain ⟨hnumbered, hinj, howned, hrest⟩ := h
  obtain ⟨hstorage, hid⟩ := writeNew_storage env key value f
  have hfiles : ∀ id ≠ f.ioId, (Fac.writeNew env key value f).2.files.lookup id =
      f.files.lookup id := by
    intro id hne
    rw [Fac.writeNew, Facilities.writeFile]
    split
    · exact AList.lookup_insert_ne hne
    · rfl
    · exact AList.lookup_insert_ne hne
  have hfresh : ∀ key', f.storage.lookup key' ≠ some f.ioId := fun key' hlookup =>
    (hnumbered key' _ hlookup).ne rfl
  constructor
  · intro key' id hlookup
    rw [hstorage] at hlookup
    rw [hid]
    rcases lookup_insert_eq_some.mp hlookup with ⟨-, rfl⟩ | ⟨-, hold⟩
    · exact Nat.lt_succ_self _
    · exact Nat.lt_succ_of_lt (hnumbered key' id hold)
  · intro key₁ key₂ id h₁ h₂
    rw [hstorage] at h₁ h₂
    rcases lookup_insert_eq_some.mp h₁ with ⟨rfl, rfl⟩ | ⟨-, h₁⟩
    · rcases lookup_insert_eq_some.mp h₂ with ⟨rfl, -⟩ | ⟨-, h₂⟩
      · rfl
      · exact absurd h₂ (hfresh key₂)
    · rcases lookup_insert_eq_some.mp h₂ with ⟨-, rfl⟩ | ⟨-, h₂⟩
      · exact absurd h₁ (hfresh key₁)
      · exact hinj key₁ key₂ id h₁ h₂
  · intro id hmem hlt
    rw [hstorage]
    rw [hid] at hlt
    by_cases hnew : id = f.ioId
    · exact ⟨key, by rw [hnew]; exact AList.lookup_insert _⟩
    · have hold : id ∈ f.files := by
        rw [← AList.lookup_isSome, ← hfiles id hnew, AList.lookup_isSome]
        exact hmem
      obtain ⟨key', hkey'⟩ := howned id hold (by omega)
      refine ⟨key', (AList.lookup_insert_ne ?_).trans hkey'⟩
      rintro rfl
      exact hkey (mem_of_lookup hkey')
  · intro id hle
    rw [hid] at hle
    rw [hfiles id (by omega)]
    exact hrest id (by omega)

/-- The file of an overwritten key goes together with the key. -/
theorem Owned.freed (h : Owned files f) {key : Str} {id : ℕ} (hkey : f.storage.lookup key = some id)
    (b : Bytes) : Owned files (freed f key id b) := by
  obtain ⟨hnumbered, hinj, howned, hrest⟩ := h
  have hsub : ∀ key' id', (f.storage.erase key).lookup key' = some id' →
      f.storage.lookup key' = some id' := fun key' id' hlookup =>
    (lookup_erase_eq_some.mp hlookup).2
  constructor
  · exact fun key' id' hlookup => hnumbered key' id' (hsub key' id' hlookup)
  · exact fun key₁ key₂ id' h₁ h₂ => hinj key₁ key₂ id' (hsub _ _ h₁) (hsub _ _ h₂)
  · intro id' hmem hlt
    obtain ⟨hne, hmem⟩ := AList.mem_erase.mp hmem
    obtain ⟨key', hkey'⟩ := howned id' hmem hlt
    refine ⟨key', lookup_erase_eq_some.mpr ⟨?_, hkey'⟩⟩
    rintro rfl
    rw [hkey] at hkey'
    exact hne (Option.some.inj hkey').symm
  · intro id' hle
    have hlt := hnumbered key id hkey
    have hle : f.ioId ≤ id' := hle
    refine (AList.lookup_erase_ne ?_).trans (hrest id' hle)
    omega

/-- The `try` block of `process_set` keeps this, whatever fails. -/
theorem Owned.tryStore (h : Owned files f) (env : Env) (key value : Str) :
    Owned files (tryStore env key value f).2 := by
  cases hkey : f.storage.lookup key with
  | none =>
    have heq : Fac.tryStore env key value f = Fac.writeNew env key value f := by
      rw [Fac.tryStore, hkey]
    rw [heq]
    exact h.writeNew (AList.lookup_eq_none.mp hkey) value
  | some id =>
    by_cases hsize : env.fault f.fileOps ≠ none ∨ f.files.lookup id = none
    · rw [tryStore_getsize_fails hkey hsize]
      exact h.of_same rfl rfl rfl
    obtain ⟨hsize, hfile⟩ := not_or.mp hsize
    have hsize : env.fault f.fileOps = none := not_not.mp hsize
    obtain ⟨b, hfile⟩ := Option.ne_none_iff_exists'.mp hfile
    by_cases hremove : env.fault (f.fileOps + 1) = none
    · rw [tryStore_removed hkey hsize hfile hremove]
      refine (h.freed hkey b).writeNew (fun hmem => ?_) value
      exact (AList.mem_erase.mp hmem).1 rfl
    · rw [tryStore_remove_fails hkey hsize hfile hremove]
      exact h.of_same rfl rfl rfl

theorem SameStore.owned (h : SameStore f f') (hf : Owned files f) : Owned files f' := by
  obtain ⟨hstorage, hfiles, hid, -⟩ := h
  exact hf.of_same hstorage hfiles hid

/-! ### Sessions -/

/-- The requests of a session that starts with `files` under `FAC_IO_DIR`. -/
def sessionSystem (env : Env) (quota : ℤ) (files : AList fun _ : ℕ => Bytes) :
    TransitionSystem StoreRun StoreInput where
  init s := s = ⟨.fresh quota files, []⟩
  step := (storeSystem env).step

/-- **The files of a session belong to its keys**, whatever file operations fail on the way. -/
theorem owned_reach {quota : ℤ} {s : StoreRun}
    (hr : Reach (sessionSystem env quota files) (fun _ _ => True) s) : Owned files s.fac := by
  refine hr.invariant (fun s => Owned files s.fac) ?_ ?_
  · rintro s rfl
    exact ⟨nofun, nofun, nofun, fun _ _ => rfl⟩
  · rintro s a s' h - ⟨hserve, -⟩
    cases a with
    | clear =>
      have hf : s'.fac = { s.fac with fmsgOut := {} } := (Except.ok.inj hserve).symm
      rw [hf]
      exact h.of_same rfl rfl rfl
    | get m => exact (processGet_sameStore hserve).owned h
    | set m =>
      cases hname : nameOk env m.key.toStr with
      | false =>
        have hraise := (processSet_refused hname s.fac).symm.trans hserve
        cases hraise
      | true =>
        have hf := Except.ok.inj ((processSet_accepted hname s.fac).symm.trans hserve)
        rw [← hf]
        split_ifs
        · exact (sameStore_answerSet _ _ _).owned h
        · exact (sameStore_answerSet _ _ _).owned (h.tryStore env _ _)
        · exact (sameStore_answerSet _ _ _).owned (h.tryStore env _ _)

/-- **What the shutdown leaves**, after any requests, and whatever file operations failed on the
    way.  It comes to its end exactly if all keys have their files, and no removal fails; then no
    file of the session is left, and those that the session has not come to are untouched.
    Otherwise it raises at the first file that is missing or whose removal fails, and the files
    from there on are left for good: the call at the exit of the process removes nothing. -/
theorem shutdown_removes {quota : ℤ} {s : StoreRun}
    (hr : Reach (sessionSystem env quota files) (fun _ _ => True) s) :
    ((shutdown env ⟨s.fac, false⟩).2 = none ↔
      (∀ i < (liveIds s.fac).length, env.fault (s.fac.fileOps + i) = none) ∧
        ∀ key id, s.fac.storage.lookup key = some id → id ∈ s.fac.files) ∧
    ((shutdown env ⟨s.fac, false⟩).2 = none →
      ∀ id, (shutdown env ⟨s.fac, false⟩).1.fac.files.lookup id =
        if id < s.fac.ioId then none else files.lookup id) ∧
    ((shutdown env ⟨s.fac, false⟩).2 ≠ none →
      ∃ removed id left, liveIds s.fac = removed ++ id :: left ∧
        (env.fault (s.fac.fileOps + removed.length) ≠ none ∨ id ∉ s.fac.files) ∧
        ∀ id, (shutdown env (shutdown env ⟨s.fac, false⟩).1).1.fac.files.lookup id =
          if id ∈ removed then none else s.fac.files.lookup id) := by
  have howned := owned_reach hr
  obtain ⟨removed, left, hids, hend, hstops, hfiles⟩ := removeFiles_spec env (liveIds s.fac) s.fac
  refine ⟨(removeFiles_ok_iff howned.nodup s.fac).trans (and_congr_right fun _ => ?_), ?_, ?_⟩
  · constructor
    · exact fun h key id hlookup => h id ((mem_liveIds _ _).mpr ⟨key, hlookup⟩)
    · intro h id hid
      obtain ⟨key, hlookup⟩ := (mem_liveIds _ _).mp hid
      exact h key id hlookup
  · intro hnone id
    have hleft := hend.mp hnone
    subst hleft
    rw [List.append_nil] at hids
    refine (hfiles id).trans ?_
    rw [← hids]
    by_cases hlt : id < s.fac.ioId
    · rw [if_pos hlt]
      split
      · rfl
      · next hid =>
        by_contra hne
        have hmem : id ∈ s.fac.files := by
          rw [← AList.lookup_isSome]
          exact Option.isSome_iff_ne_none.mpr hne
        exact hid ((mem_liveIds _ _).mpr (howned.owned id hmem hlt))
    · have hid : id ∉ liveIds s.fac := by
        intro hid
        obtain ⟨key, hlookup⟩ := (mem_liveIds _ _).mp hid
        exact hlt (howned.numbered key id hlookup)
      rw [if_neg hlt, if_neg hid]
      exact howned.rest id (Nat.le_of_not_lt hlt)
  · intro hraise
    obtain ⟨id, left, rfl⟩ := List.exists_cons_of_ne_nil fun hleft => hraise (hend.mpr hleft)
    refine ⟨removed, id, left, hids, (hstops id left rfl).imp_right fun hnone => ?_, hfiles⟩
    -- the file was not there before, for it is not one of those that were removed
    have hnotin : id ∉ removed := by
      have hnodup := howned.nodup
      rw [hids] at hnodup
      exact fun hmem => (List.nodup_append.mp hnodup).2.2 id hmem id (List.mem_cons_self ..) rfl
    rw [hfiles, if_neg hnotin] at hnone
    exact AList.lookup_eq_none.mp hnone

/-- After the session that has stored one value no file is left. -/
theorem shutdown_removes_stored : (shutdown ackEnv ⟨storedRun.fac, false⟩).2 = none ∧
    ∀ id, (shutdown ackEnv ⟨storedRun.fac, false⟩).1.fac.files.lookup id = none := by
  have hinit : Reach (sessionSystem ackEnv 100 ∅) (fun _ _ => True) ⟨.fresh 100 ∅, []⟩ := .init rfl
  have hreach : Reach (sessionSystem ackEnv 100 ∅) (fun _ _ => True) storedRun :=
    .step (a := .set ⟨.str ['a'], .str ['x']⟩) hinit trivial ⟨rfl, by decide⟩
  have hnone : (shutdown ackEnv ⟨storedRun.fac, false⟩).2 = none := by decide
  refine ⟨hnone, fun id => ?_⟩
  have hfiles := (shutdown_removes hreach).2.1 hnone id
  rw [hfiles]
  split <;> rfl

end Furnace.Fac
