import Furnace.Fac.Store
import Furnace.Lib.Transition

namespace Furnace.Fac

open Furnace.Lib Furnace.Lib.PyText

/-!
# The facilities store is a map

What the store is for: a finite map from keys to values.  `contents` reads that map off the
storage dictionary and the files, and a stored value is an update of it
(`contents_store`).

* `Coherent` — live keys have different numbers, which were used before, and files with
  text in them.
* `storeSystem` — any sequence of `GET` and `SET` requests, with the successful `SET`s in a
  log.
* `store_refines` — in every state reached, the store holds the latest value of each key.
-/

/-! ### The map -/

/-- The value of a key: what its file decodes to. -/
def contents (f : Facilities) (key : Str) : Option Str :=
  ((f.storage.lookup key).bind f.files.lookup).bind Utf8.decode

/-- The coupling of the dictionary, the counter and the files. -/
structure Coherent (f : Facilities) : Prop where
  /-- Live numbers were handed out before. -/
  lt : ∀ key id, f.storage.lookup key = some id → id < f.ioId
  /-- No two live keys share a number. -/
  inj : ∀ key key' id, f.storage.lookup key = some id → f.storage.lookup key' = some id → key = key'
  /-- The file of a live key exists, and holds text. -/
  file : ∀ key id, f.storage.lookup key = some id →
    ∃ value, f.files.lookup id = some (Utf8.encode value)

theorem Coherent.filesExist {f : Facilities} (h : Coherent f) : FilesExist f := by
  intro key id hkey
  obtain ⟨value, hfile⟩ := h.file key id hkey
  exact mem_of_lookup hfile

/-- Removing the file of one key leaves the files of the others. -/
theorem Coherent.lookup_keptFiles {f : Facilities} (h : Coherent f) {key key' : Str} {id : ℕ}
    (hne : key' ≠ key) (hid : f.storage.lookup key' = some id) :
    (keptFiles f key).lookup id = f.files.lookup id := by
  unfold keptFiles
  cases hkey : f.storage.lookup key with
  | none => rfl
  | some old =>
    have hold : id ≠ old := by
      intro heq
      subst heq
      exact hne (h.inj _ _ _ hid hkey)
    exact AList.lookup_erase_ne hold

/-- The files of the other keys after a value was stored. -/
theorem Coherent.lookup_store {f : Facilities} (h : Coherent f) {key key' : Str} {id : ℕ}
    (hne : key' ≠ key) (hid : f.storage.lookup key' = some id) (value : Str) (n : ℕ) :
    (store key value n f).files.lookup id = f.files.lookup id := by
  have hlt := h.lt key' id hid
  show ((keptFiles f key).insert f.ioId _).lookup id = _
  rw [AList.lookup_insert_ne (by omega), h.lookup_keptFiles hne hid]

/-- Storing a value keeps the coupling. -/
theorem Coherent.store {f : Facilities} (h : Coherent f) (key value : Str) (n : ℕ) :
    Coherent (store key value n f) := by
  -- an entry is the new one, or one of another key as it was before
  have hentry : ∀ {key' id}, (Fac.store key value n f).storage.lookup key' = some id →
      key' = key ∧ id = f.ioId ∨ key' ≠ key ∧ f.storage.lookup key' = some id :=
    fun hid => lookup_insert_eq_some.mp hid
  refine ⟨fun key' id hid => ?_, fun k k' id hk hk' => ?_, fun key' id hid => ?_⟩
  · show id < f.ioId + 1
    rcases hentry hid with ⟨-, rfl⟩ | ⟨-, hid⟩
    · omega
    · have := h.lt _ _ hid
      omega
  · have hold : ∀ {key'}, f.storage.lookup key' = some id → id < f.ioId := h.lt _ id
    rcases hentry hk with ⟨hk, hid⟩ | ⟨-, hk⟩ <;> rcases hentry hk' with ⟨hk', hid'⟩ | ⟨-, hk'⟩
    · rw [hk, hk']
    · exact absurd hid (Nat.ne_of_lt (hold hk'))
    · exact absurd hid' (Nat.ne_of_lt (hold hk))
    · exact h.inj _ _ _ hk hk'
  · rcases hentry hid with ⟨rfl, rfl⟩ | ⟨hne, hid⟩
    · exact ⟨value, AList.lookup_insert _⟩
    · rw [h.lookup_store hne hid]
      exact h.file _ _ hid

/-- **A stored value updates the map**, at its key only. -/
theorem contents_store {f : Facilities} (h : Coherent f) (key value : Str) (n : ℕ) :
    contents (store key value n f) = Function.update (contents f) key (some value) := by
  funext key'
  by_cases hkey : key' = key
  · subst hkey
    simp [contents, store]
  · rw [Function.update_of_ne hkey]
    unfold contents
    have hsame : (store key value n f).storage.lookup key' = f.storage.lookup key' :=
      AList.lookup_insert_ne hkey
    rw [hsame]
    cases hid : f.storage.lookup key' with
    | none => rfl
    | some id =>
      show ((store key value n f).files.lookup id).bind _ = (f.files.lookup id).bind _
      rw [h.lookup_store hkey hid]

/-! ### Requests -/

/-- The parts of the state that the map depends on. -/
def SameStore (f f' : Facilities) : Prop :=
  f'.storage = f.storage ∧ f'.files = f.files ∧ f'.ioId = f.ioId ∧ f'.diskUsage = f.diskUsage ∧
    f'.maxDiskUsage = f.maxDiskUsage

theorem SameStore.contents {f f' : Facilities} (h : SameStore f f') : contents f' = contents f := by
  obtain ⟨hs, hf, -⟩ := h
  funext key
  simp only [Fac.contents, hs, hf]

theorem SameStore.coherent {f f' : Facilities} (h : SameStore f f') (hf : Coherent f) :
    Coherent f' := by
  obtain ⟨hs, hfiles, hid, -⟩ := h
  refine ⟨?_, ?_, ?_⟩
  · rw [hs, hid]
    exact hf.lt
  · rw [hs]
    exact hf.inj
  · rw [hs, hfiles]
    exact hf.file

/-- A `GET` that is answered leaves the store as it is. -/
theorem processGet_sameStore {env : Env} {m : GetMsg} {f f' : Facilities}
    (h : processGet env m f = .ok f') : SameStore f f' := by
  cases hname : nameOk env m.key.toStr with
  | false =>
    rw [processGet_refused hname] at h
    cases h
    exact ⟨rfl, rfl, rfl, rfl, rfl⟩
  | true =>
    obtain ⟨value, -, rfl⟩ := (processGet_eq_ok hname).mp h
    exact ⟨rfl, rfl, rfl, rfl, rfl⟩

/-- **A `GET` reads the map.** An accepted key with a value is answered with that value. -/
theorem processGet_of_contents {env : Env} (henv : env.Reliable) {f : Facilities} {key value : Str}
    (hname : nameOk env key = true) (hval : contents f key = some value) :
    ∃ f', processGet env ⟨.str key⟩ f = .ok f' ∧
      f'.fmsgOut = f.fmsgOut.addGetRet ⟨.str key, .str value, vmiSuccess⟩ := by
  obtain ⟨b, hfile, hdecode⟩ := Option.bind_eq_some_iff.mp hval
  obtain ⟨id, hid, hb⟩ := Option.bind_eq_some_iff.mp hfile
  have hread : Readable env f key value := ⟨henv _, id, b, hid, hb, hdecode⟩
  exact ⟨_, (processGet_eq_ok hname).mpr ⟨value, hread, rfl⟩, rfl⟩

/-- **What an answered `SET` does.** It is over the quota and changes nothing, or it stores
    its value. -/
theorem processSet_spec {env : Env} (henv : env.Reliable) {f f' : Facilities} (hf : FilesExist f)
    {m : SetMsg} (h : processSet env m f = .ok f') :
    nameOk env m.key.toStr = true ∧
    ((exceeds f m.value.toStr = true ∧ f' = answerSet m.key.toStr vmiFailure f) ∨
     (exceeds f m.value.toStr = false ∧
      ∃ n, f' = answerSet m.key.toStr vmiSuccess (store m.key.toStr m.value.toStr n f))) := by
  cases hname : nameOk env m.key.toStr with
  | false =>
    rw [processSet_refused hname] at h
    cases h
  | true =>
    refine ⟨rfl, ?_⟩
    rw [processSet_accepted hname] at h
    cases hex : exceeds f m.value.toStr with
    | true =>
      rw [hex, if_pos rfl] at h
      exact .inl ⟨rfl, (Except.ok.inj h).symm⟩
    | false =>
      obtain ⟨n, hstore⟩ := tryStore_eq henv hf m.key.toStr m.value.toStr
      rw [hex, hstore] at h
      exact .inr ⟨rfl, n, (Except.ok.inj h).symm⟩

/-! ### Runs -/

/-- What the store is asked for: to start a new reply, as it does ahead of every message, or
    to serve a request. -/
inductive StoreInput
  | clear
  | get (m : GetMsg)
  | set (m : SetMsg)

/-- Serve one input. -/
def serve (env : Env) (a : StoreInput) (f : Facilities) : Except PyError Facilities :=
  match a with
  | .clear => .ok { f with fmsgOut := {} }
  | .get m => processGet env m f
  | .set m => processSet env m f

/-- The last `SET_RET` of the reply buffer. -/
def lastSetRet (f : Facilities) : Option SetRet := f.fmsgOut.setRet.getLast?

/-- The log of the successful `SET`s after an input was served. -/
def logged (log : List (Str × Str)) (a : StoreInput) (f : Facilities) : List (Str × Str) :=
  match a with
  | .set m =>
    if lastSetRet f = some ⟨.str m.key.toStr, vmiSuccess⟩ then
      log ++ [(m.key.toStr, m.value.toStr)]
    else log
  | _ => log

/-- The latest value that was stored under a key. -/
def latest (log : List (Str × Str)) (key : Str) : Option Str :=
  (log.reverse.find? fun e => e.1 = key).map Prod.snd

/-- A runtime that has just started: nothing is stored, whatever lies under `FAC_IO_DIR`. -/
def Facilities.fresh (quota : ℤ) (files : AList fun _ : ℕ => Bytes) : Facilities :=
  { maxDiskUsage := quota, files := files }

/-- The store with its log. -/
structure StoreRun where
  fac : Facilities
  log : List (Str × Str)

/-- Any sequence of inputs that are served. -/
def storeSystem (env : Env) : TransitionSystem StoreRun StoreInput where
  init s := ∃ quota files, s = ⟨.fresh quota files, []⟩
  step s a s' := serve env a s.fac = .ok s'.fac ∧ s'.log = logged s.log a s'.fac

@[simp] theorem lastSetRet_answerSet (key : Str) (result : ℕ) (f : Facilities) :
    lastSetRet (answerSet key result f) = some ⟨.str key, result⟩ := by
  simp [lastSetRet, answerSet, FacMessage.addSetRet]

/-- A logged value is the latest of its key. -/
theorem latest_append (log : List (Str × Str)) (key value : Str) :
    latest (log ++ [(key, value)]) = Function.update (latest log) key (some value) := by
  funext key'
  by_cases h : key' = key
  · simp [latest, h]
  · have h' : ¬ key = key' := fun heq => h heq.symm
    simp [latest, h, h']

theorem sameStore_answerSet (key : Str) (result : ℕ) (f : Facilities) :
    SameStore f (answerSet key result f) := ⟨rfl, rfl, rfl, rfl, rfl⟩

/-- The invariant of a run: the coupling holds, and the store holds what the log says. -/
structure StoreInv (s : StoreRun) : Prop where
  coherent : Coherent s.fac
  contents_eq : contents s.fac = latest s.log

/-- An input that leaves the store and the log alone keeps the invariant. -/
theorem StoreInv.of_sameStore {s s' : StoreRun} (h : StoreInv s) (hf : SameStore s.fac s'.fac)
    (hlog : s'.log = s.log) : StoreInv s' := by
  refine ⟨hf.coherent h.coherent, ?_⟩
  rw [hf.contents, hlog, h.contents_eq]

/-- One input keeps the invariant. -/
theorem StoreInv.step {env : Env} (henv : env.Reliable) {s s' : StoreRun} {a : StoreInput}
    (h : StoreInv s) (hs : (storeSystem env).step s a s') : StoreInv s' := by
  obtain ⟨hserve, hlog⟩ := hs
  cases a with
  | clear =>
    refine h.of_sameStore ?_ hlog
    have hf : s'.fac = { s.fac with fmsgOut := {} } := (Except.ok.inj hserve).symm
    rw [hf]
    exact ⟨rfl, rfl, rfl, rfl, rfl⟩
  | get m => exact h.of_sameStore (processGet_sameStore hserve) hlog
  | set m =>
    obtain ⟨-, ⟨-, hf⟩ | ⟨-, n, hf⟩⟩ := processSet_spec henv h.coherent.filesExist hserve
    · -- over the quota
      refine h.of_sameStore (hf ▸ sameStore_answerSet _ _ _) ?_
      rw [hlog]
      simp [logged, hf, vmiFailure, vmiSuccess]
    · have hsame : SameStore (store m.key.toStr m.value.toStr n s.fac) s'.fac :=
        hf ▸ sameStore_answerSet _ _ _
      refine ⟨hsame.coherent (h.coherent.store _ _ _), ?_⟩
      rw [hsame.contents, contents_store h.coherent, h.contents_eq, hlog]
      simp [logged, hf, latest_append]

/-- The invariant holds in every state that is reached. -/
theorem storeInv_reach {env : Env} (henv : env.Reliable) {guard : StoreRun → StoreInput → Prop}
    {s : StoreRun} (hr : Reach (storeSystem env) guard s) : StoreInv s := by
  refine Reach.invariant StoreInv ?_ (fun _ _ _ h _ hs => h.step henv hs) hr
  rintro s ⟨quota, files, rfl⟩
  exact ⟨⟨by simp [Facilities.fresh], by simp [Facilities.fresh], by simp [Facilities.fresh]⟩, rfl⟩

/-- **The store refines a finite map.** In every state that any sequence of requests
    reaches, when no file operation fails: a `GET` of an accepted key is answered with the
    latest value that a `SET` stored under it; a `SET` that is answered with a failure is
    over the quota, and changes no value; live keys have numbers of their own, all below
    `io_id`, whose files exist. -/
theorem store_refines {env : Env} (henv : env.Reliable) {s : StoreRun}
    (hr : Reach (storeSystem env) (fun _ _ => True) s) :
    (∀ key value, nameOk env key = true → latest s.log key = some value →
      ∃ f', processGet env ⟨.str key⟩ s.fac = .ok f' ∧
        f'.fmsgOut = s.fac.fmsgOut.addGetRet ⟨.str key, .str value, vmiSuccess⟩) ∧
    (∀ m f', processSet env m s.fac = .ok f' →
      lastSetRet f' = some ⟨.str m.key.toStr, vmiFailure⟩ →
      exceeds s.fac m.value.toStr = true ∧ ∀ key, contents f' key = contents s.fac key) ∧
    (∀ key id, s.fac.storage.lookup key = some id → id < s.fac.ioId ∧ id ∈ s.fac.files) ∧
    (∀ key key' id, s.fac.storage.lookup key = some id → s.fac.storage.lookup key' = some id →
      key = key') := by
  have hinv := storeInv_reach henv hr
  refine ⟨fun key value hname hval => ?_, fun m f' hset hlast => ?_, fun key id hid => ?_,
    hinv.coherent.inj⟩
  · exact processGet_of_contents henv hname (by rw [hinv.contents_eq, hval])
  · obtain ⟨-, ⟨hex, rfl⟩ | ⟨-, n, rfl⟩⟩ := processSet_spec henv hinv.coherent.filesExist hset
    · exact ⟨hex, fun key => congrFun (sameStore_answerSet _ _ _).contents key⟩
    · -- a value that is stored is answered with success
      simp [vmiSuccess, vmiFailure] at hlast
  · exact ⟨hinv.coherent.lt key id hid, hinv.coherent.filesExist key id hid⟩

/-- An environment whose file operations succeed, and whose backend acknowledges every
    message. -/
def ackEnv : Env where
  fault _ := none
  backend _ := .ofBeMsgRet ⟨0, .str []⟩
  unicodeWord _ := false
  parse _ := .ok {}
  serialize _ := []

theorem ackEnv_reliable : ackEnv.Reliable := fun _ => rfl

/-- The run that stores `"x"` under `"a"`. -/
def storedRun : StoreRun :=
  ⟨answerSet ['a'] vmiSuccess (store ['a'] ['x'] 1 (.fresh 100 ∅)), [(['a'], ['x'])]⟩

/-- After a second `SET` of a key a `GET` is answered with the new value, and the other key has
    kept its own. -/
theorem store_refines_overwritten : ∃ s : StoreRun,
    s.log = [(['a'], ['x']), (['b'], ['z']), (['a'], ['y'])] ∧
    (∃ f', processGet ackEnv ⟨.str ['a']⟩ s.fac = .ok f' ∧
      f'.fmsgOut = s.fac.fmsgOut.addGetRet ⟨.str ['a'], .str ['y'], vmiSuccess⟩) ∧
    ∃ f', processGet ackEnv ⟨.str ['b']⟩ s.fac = .ok f' ∧
      f'.fmsgOut = s.fac.fmsgOut.addGetRet ⟨.str ['b'], .str ['z'], vmiSuccess⟩ := by
  have hrun : ∃ f f', serve ackEnv (.set ⟨.str ['b'], .str ['z']⟩) storedRun.fac = .ok f ∧
      lastSetRet f = some ⟨.str ['b'], vmiSuccess⟩ ∧
      serve ackEnv (.set ⟨.str ['a'], .str ['y']⟩) f = .ok f' ∧
      lastSetRet f' = some ⟨.str ['a'], vmiSuccess⟩ := ⟨_, _, rfl, by decide, rfl, by decide⟩
  obtain ⟨f, f', hb, hlast, ha, hlast'⟩ := hrun
  have hinit : Reach (storeSystem ackEnv) (fun _ _ => True) ⟨.fresh 100 ∅, []⟩ :=
    .init ⟨100, ∅, rfl⟩
  have hstored : Reach (storeSystem ackEnv) (fun _ _ => True) storedRun :=
    .step (a := .set ⟨.str ['a'], .str ['x']⟩) hinit trivial ⟨rfl, by decide⟩
  have hboth : Reach (storeSystem ackEnv) (fun _ _ => True)
      ⟨f, [(['a'], ['x']), (['b'], ['z'])]⟩ :=
    .step (a := .set ⟨.str ['b'], .str ['z']⟩) hstored trivial ⟨hb, (if_pos hlast).symm⟩
  have hagain : Reach (storeSystem ackEnv) (fun _ _ => True)
      ⟨f', [(['a'], ['x']), (['b'], ['z']), (['a'], ['y'])]⟩ :=
    .step (a := .set ⟨.str ['a'], .str ['y']⟩) hboth trivial ⟨ha, (if_pos hlast').symm⟩
  obtain ⟨hget, -⟩ := store_refines ackEnv_reliable hagain
  exact ⟨_, rfl, hget _ _ (by decide) rfl, hget _ _ (by decide) rfl⟩

end Furnace.Fac
