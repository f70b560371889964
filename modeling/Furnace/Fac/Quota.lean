import Furnace.Fac.StoreMap

namespace Furnace.Fac

open Furnace.Lib Furnace.Lib.PyText

/-!
# The disk quota

`disk_usage` is to be the size of what is stored.  It is checked and refunded in bytes and
charged in characters, and the check is against `MAX_DISK_USAGE`, not against the quota that
the instance was given.

* `usage` — the sizes of the files of all live keys, together; `usage_store` is its change.
* `QuotaExact` — the accounting is exact, and within the configured quota.
* `store_quotaExact_iff` — the `SET`s that keep it so.
* `quotaExact_reach` — it holds along the runs of such `SET`s.
-/

/-- The size of a file; `0` when it does not exist. -/
def fileSize (f : Facilities) (id : ℕ) : ℕ := (f.files.lookup id).elim 0 List.length

/-- The sizes of the files of all live keys, together. -/
def usage (f : Facilities) : ℕ := weight (fileSize f) f.storage

/-- The accounting is exact and the configured quota is kept. -/
structure QuotaExact (f : Facilities) : Prop where
  exact : f.diskUsage = usage f
  nonneg : 0 ≤ f.diskUsage
  le : f.diskUsage ≤ f.maxDiskUsage

theorem SameStore.quotaExact {f f' : Facilities} (h : SameStore f f') (hf : QuotaExact f) :
    QuotaExact f' := by
  obtain ⟨hs, hfiles, -, hdisk, hmax⟩ := h
  have husage : usage f' = usage f := by
    have hsize : fileSize f' = fileSize f := by
      funext id
      rw [fileSize, hfiles, fileSize]
    rw [usage, hs, hsize, usage]
  refine ⟨?_, ?_, ?_⟩
  · rw [hdisk, husage, hf.exact]
  · rw [hdisk]
    exact hf.nonneg
  · rw [hdisk, hmax]
    exact hf.le

/-! ### One `SET` -/

/-- What the live keys other than `key` take. -/
def restUsage (f : Facilities) (key : Str) : ℕ := weight (fileSize f) (f.storage.erase key)

/-- The size of the file of a key is part of the usage. -/
theorem usage_eq (f : Facilities) (key : Str) : usage f = oldSize f key + restUsage f key := by
  unfold usage restUsage oldSize
  cases hkey : f.storage.lookup key with
  | none =>
    have hmem : key ∉ f.storage := by
      rw [← AList.lookup_eq_none]
      exact hkey
    have herase : f.storage.erase key = f.storage := by
      apply AList.ext
      exact List.kerase_of_notMem_keys hmem
    rw [herase]
    simp
  | some id => exact weight_of_lookup (fileSize f) hkey

/-- A stored value takes its size in bytes. -/
theorem usage_store {f : Facilities} (h : Coherent f) (key value : Str) (n : ℕ) :
    usage (store key value n f) = (Utf8.encode value).length + restUsage f key := by
  have hinsert : (store key value n f).storage = (f.storage.erase key).insert key f.ioId :=
    (insert_erase_self _ _ _).symm
  have hfree : key ∉ f.storage.erase key := by simp
  have hnew : fileSize (store key value n f) f.ioId = (Utf8.encode value).length := by
    simp [fileSize, store]
  -- the other files are as they were
  have hrest : weight (fileSize (store key value n f)) (f.storage.erase key) = restUsage f key := by
    refine weight_congr fun key' id hid => ?_
    obtain ⟨hne, hid⟩ := lookup_erase_eq_some.mp hid
    rw [fileSize, h.lookup_store hne hid, fileSize]
  rw [usage, hinsert, weight_insert_of_not_mem _ _ hfree, hnew, hrest]

/-- The charge of a `SET` is right: its value has as many characters as bytes, and they fit
    into the configured quota once the old value of the key is gone. -/
def Fits (f : Facilities) (key value : Str) : Prop :=
  value.length = (Utf8.encode value).length ∧
  f.diskUsage - oldSize f key + (Utf8.encode value).length ≤ f.maxDiskUsage

/-- The charge is right for ASCII text only. -/
theorem fits_iff {f : Facilities} {key value : Str} : Fits f key value ↔
    (∀ c ∈ value, c.utf8Size = 1) ∧
    f.diskUsage - oldSize f key + value.length ≤ f.maxDiskUsage := by
  unfold Fits
  rw [← Utf8.length_encode_eq_iff]
  constructor
  · rintro ⟨hlen, hfit⟩
    rw [← hlen] at hfit
    exact ⟨hlen, hfit⟩
  · rintro ⟨hlen, hfit⟩
    rw [hlen] at hfit
    exact ⟨hlen, hfit⟩

/-- **The `SET`s that keep the accounting exact.** -/
theorem store_quotaExact_iff {f : Facilities} (h : Coherent f) (hq : QuotaExact f)
    (key value : Str) (n : ℕ) : QuotaExact (store key value n f) ↔ Fits f key value := by
  have hold := usage_eq f key
  have hnew := usage_store h key value n
  have hle := Utf8.length_le_encode value
  have hdisk : (store key value n f).diskUsage =
      f.diskUsage - oldSize f key + value.length := rfl
  have hmax : (store key value n f).maxDiskUsage = f.maxDiskUsage := rfl
  have hexact := hq.exact
  unfold Fits
  constructor
  · rintro ⟨he, -, hl⟩
    rw [hdisk, hnew] at he
    rw [hdisk, hmax] at hl
    constructor <;> omega
  · rintro ⟨hlen, hfit⟩
    refine ⟨?_, ?_, ?_⟩
    · rw [hdisk, hnew]
      omega
    · rw [hdisk]
      omega
    · rw [hdisk, hmax]
      omega

/-! ### Runs -/

/-- A `SET` that the runtime's own check lets through fits. -/
def FitsIfAdmitted (env : Env) (s : StoreRun) (a : StoreInput) : Prop :=
  match a with
  | .set m =>
    nameOk env m.key.toStr = true → exceeds s.fac m.value.toStr = false →
      Fits s.fac m.key.toStr m.value.toStr
  | _ => True

/-- One input that keeps the condition keeps the accounting exact. -/
theorem quotaExact_step {env : Env} (henv : env.Reliable) {s s' : StoreRun} {a : StoreInput}
    (hc : Coherent s.fac) (hq : QuotaExact s.fac) (hg : FitsIfAdmitted env s a)
    (hs : (storeSystem env).step s a s') : QuotaExact s'.fac := by
  obtain ⟨hserve, -⟩ := hs
  cases a with
  | clear =>
    have hf : s'.fac = { s.fac with fmsgOut := {} } := (Except.ok.inj hserve).symm
    have hsame : SameStore s.fac s'.fac := by
      rw [hf]
      exact ⟨rfl, rfl, rfl, rfl, rfl⟩
    exact hsame.quotaExact hq
  | get m => exact (processGet_sameStore hserve).quotaExact hq
  | set m =>
    obtain ⟨hname, ⟨-, hf⟩ | ⟨hex, n, hf⟩⟩ := processSet_spec henv hc.filesExist hserve
    · rw [hf]
      exact (sameStore_answerSet _ _ _).quotaExact hq
    · have hfits : Fits s.fac m.key.toStr m.value.toStr := hg hname hex
      rw [hf]
      exact (sameStore_answerSet _ _ _).quotaExact ((store_quotaExact_iff hc hq _ _ n).mpr hfits)

/-- The configured quota never changes. -/
theorem maxDiskUsage_step {env : Env} (henv : env.Reliable) {s s' : StoreRun} {a : StoreInput}
    (hc : Coherent s.fac) (hs : (storeSystem env).step s a s') :
    s'.fac.maxDiskUsage = s.fac.maxDiskUsage := by
  obtain ⟨hserve, -⟩ := hs
  cases a with
  | clear => rw [← Except.ok.inj hserve]
  | get m => exact (processGet_sameStore hserve).2.2.2.2
  | set m =>
    obtain ⟨-, ⟨-, hf⟩ | ⟨-, n, hf⟩⟩ := processSet_spec henv hc.filesExist hserve
    · rw [hf]
      rfl
    · rw [hf]
      rfl

/-- **The accounting along a run.** When no file operation fails and every `SET` that the
    check lets through fits, `disk_usage` is in every state reached the size of all that is
    stored, and within the configured quota. -/
theorem quotaExact_reach {env : Env} (henv : env.Reliable) {s : StoreRun}
    (hr : Reach (storeSystem env) (FitsIfAdmitted env) s) (hquota : 0 ≤ s.fac.maxDiskUsage) :
    QuotaExact s.fac := by
  have hinv : StoreInv s ∧ (0 ≤ s.fac.maxDiskUsage → QuotaExact s.fac) := by
    refine Reach.invariant (fun s => StoreInv s ∧ (0 ≤ s.fac.maxDiskUsage → QuotaExact s.fac))
      ?_ ?_ hr
    · rintro s ⟨quota, files, rfl⟩
      have hinit : Reach (storeSystem env) (fun _ _ => True) ⟨.fresh quota files, []⟩ :=
        .init ⟨quota, files, rfl⟩
      exact ⟨storeInv_reach henv hinit, fun hq => ⟨rfl, le_rfl, hq⟩⟩
    · rintro s a s' ⟨hstore, hq⟩ hg hs
      refine ⟨hstore.step henv hs, fun hquota => ?_⟩
      rw [maxDiskUsage_step henv hstore.coherent hs] at hquota
      exact quotaExact_step henv hstore.coherent (hq hquota) hg hs
  exact hinv.2 hquota

/-- After one `SET` of an ASCII value, the accounting is exact. -/
theorem quotaExact_storedRun : QuotaExact storedRun.fac := by
  have hinit : Reach (storeSystem ackEnv) (FitsIfAdmitted ackEnv) ⟨.fresh 100 ∅, []⟩ :=
    .init ⟨100, ∅, rfl⟩
  have hfits : FitsIfAdmitted ackEnv ⟨.fresh 100 ∅, []⟩ (.set ⟨.str ['a'], .str ['x']⟩) :=
    fun _ _ => ⟨by decide, by decide⟩
  exact quotaExact_reach ackEnv_reliable (.step hinit hfits ⟨rfl, by decide⟩) (by decide)

/-- The store after `SET a = é` of a runtime with a quota. -/
def accented (quota : ℤ) : StoreRun :=
  ⟨answerSet ['a'] vmiSuccess (store ['a'] ['é'] 1 (.fresh quota ∅)), [(['a'], ['é'])]⟩

/-- The store after the value was overwritten with an empty one. -/
def overwritten : StoreRun :=
  ⟨answerSet ['a'] vmiSuccess (store ['a'] [] 4 (accented 100).fac),
    [(['a'], ['é']), (['a'], [])]⟩

theorem reach_accented (quota : ℤ) :
    Reach (storeSystem ackEnv) (fun _ _ => True) (accented quota) := by
  have hinit : Reach (storeSystem ackEnv) (fun _ _ => True) ⟨.fresh quota ∅, []⟩ :=
    .init ⟨quota, ∅, rfl⟩
  refine .step (a := .set ⟨.str ['a'], .str ['é']⟩) hinit trivial ⟨rfl, ?_⟩
  simp [logged, accented, PyStr.toStr]

/-- **The accounting drifts.** A value of one character and two bytes is charged as one; when
    it is overwritten, `disk_usage` falls below zero.  And a quota of zero is exceeded by the
    same `SET`. -/
theorem overwritten_negative :
    Reach (storeSystem ackEnv) (fun _ _ => True) overwritten ∧
    (accented 100).fac.diskUsage = 1 ∧ usage (accented 100).fac = 2 ∧
    overwritten.fac.diskUsage = -1 ∧ usage overwritten.fac = 0 ∧
    Reach (storeSystem ackEnv) (fun _ _ => True) (accented 0) ∧
    (accented 0).fac.maxDiskUsage < (accented 0).fac.diskUsage := by
  refine ⟨?_, by decide, by decide, by decide, by decide, reach_accented 0, by decide⟩
  exact .step (a := .set ⟨.str ['a'], .str []⟩) (reach_accented 100) trivial ⟨rfl, by decide⟩

end Furnace.Fac
