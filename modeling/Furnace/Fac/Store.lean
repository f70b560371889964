import Furnace.Fac.Message
import Furnace.Lib.FirstFree
import Furnace.Lib.Outcome
import Furnace.Lib.Weight

namespace Furnace.Fac

open Furnace.Lib Furnace.Lib.PyText

/-!
# The facilities store

`process_get` and `process_set`: a key is stored in a file of its own, named by a number
that is never used again.

* `Facilities` — the members of the runtime, with the files under `FAC_IO_DIR`.
* `nameOk` — `get_name_ok`.
* `processGet`, `processSet` — the two handlers; `tryStore` is the `try` block of the
  latter, which keeps what it did before an exception.
* `tryStore_eq` — what that block does when no file operation fails.
-/

/-- `VMI_SUCCESS` and `VMI_FAILURE`. -/
def vmiSuccess : ℕ := 0
def vmiFailure : ℕ := 1

/-- `MAX_DISK_USAGE`. -/
def maxDiskUsageConst : ℤ := 1024 * 1024 * 16

/-- What surrounds the runtime.  `fault n` is what goes wrong with file operation `n`, if
    anything does: the operation raises an `OSError`, and a write may leave some content
    behind.  `backend` answers the messages that were forwarded so far, the last of which
    waits for the answer.  `unicodeWord` is `str.isalnum()` outside ASCII. -/
structure Env where
  fault : ℕ → Option (Option Bytes)
  backend : List FacMessage → FacMessage
  unicodeWord : Char → Bool
  parse : Bytes → Except PyError FacMessage
  serialize : FacMessage → Bytes

/-- All file operations succeed. -/
def Env.Reliable (env : Env) : Prop := ∀ n, env.fault n = none

/-- The members of `Facilities`; `files` are the files under `FAC_IO_DIR` that are named by
    a number, `fileOps` counts the file operations, `forwarded` and `sent` are what went to
    the backend and to the apps. -/
structure Facilities where
  storage : AList fun _ : Str => ℕ := ∅
  ioId : ℕ := 0
  diskUsage : ℤ := 0
  maxDiskUsage : ℤ
  files : AList fun _ : ℕ => Bytes := ∅
  fileOps : ℕ := 0
  fmsgOut : FacMessage := {}
  forwarded : List FacMessage := []
  sent : List (List Bytes) := []

namespace Facilities

/-! ### File operations -/

/-- `os.path.getsize`. -/
def getsize (env : Env) (id : ℕ) (f : Facilities) : Option ℕ × Facilities :=
  (if env.fault f.fileOps = none then (f.files.lookup id).map List.length else none,
    { f with fileOps := f.fileOps + 1 })

/-- `os.remove`. -/
def remove (env : Env) (id : ℕ) (f : Facilities) : Bool × Facilities :=
  if env.fault f.fileOps = none ∧ id ∈ f.files then
    (true, { f with files := f.files.erase id, fileOps := f.fileOps + 1 })
  else (false, { f with fileOps := f.fileOps + 1 })

/-- `open(…, "wb")` and `write`. -/
def writeFile (env : Env) (id : ℕ) (b : Bytes) (f : Facilities) : Bool × Facilities :=
  match env.fault f.fileOps with
  | none => (true, { f with files := f.files.insert id b, fileOps := f.fileOps + 1 })
  | some none => (false, { f with fileOps := f.fileOps + 1 })
  -- the file was opened, and is cut off where the write failed
  | some (some b) => (false, { f with files := f.files.insert id b, fileOps := f.fileOps + 1 })

/-- `open(…, "rb")` and `read`. -/
def readFile (env : Env) (id : ℕ) (f : Facilities) : Except PyError (Bytes × Facilities) :=
  match env.fault f.fileOps, f.files.lookup id with
  | none, some b => .ok (b, { f with fileOps := f.fileOps + 1 })
  | _, _ => .error .osError

end Facilities

open Facilities

/-! ### Names -/

/-- `[\w-]`. -/
def isNameChar (env : Env) (c : Char) : Bool :=
  c = '-' || c = '_' || if c.val < 128 then c.isAlphanum else env.unicodeWord c

/-- `re.match("^[\w-]+$", n)`: the `$` also matches ahead of a newline at the end. -/
def matchName (env : Env) (n : Str) : Bool :=
  let body := if n.getLast? = some '\n' then n.dropLast else n
  !body.isEmpty && body.all (isNameChar env)

/-- `get_name_ok`. -/
def nameOk (env : Env) (n : Str) : Bool := 0 < n.length && n.length < 17 && matchName env n

/-! ### `process_get` -/

/-- Append a `GET_RET` to `fmsg_out`. -/
def answerGet (key value : Str) (result : ℕ) (f : Facilities) : Facilities :=
  { f with fmsgOut := f.fmsgOut.addGetRet ⟨.str key, .str value, result⟩ }

/-- `process_get`.  An exception ends the runtime, so the reply it leaves half done is not
    kept. -/
def processGet (env : Env) (m : GetMsg) (f : Facilities) : Except PyError Facilities :=
  let key := m.key.toStr
  if !nameOk env key then .ok (answerGet key [] vmiFailure f)
  else match f.storage.lookup key with
    -- the handler catches an IndexError
    | none => .error .keyError
    | some id => do
      let (b, f) ← f.readFile env id
      match Utf8.decode b with
      | none => .error .unicodeDecodeError
      | some value => .ok (answerGet key value vmiSuccess f)

/-- What a file operation that reads answers. -/
theorem readFile_eq_ok {env : Env} {id : ℕ} {f : Facilities} {r : Bytes × Facilities} :
    f.readFile env id = .ok r ↔ env.fault f.fileOps = none ∧
      ∃ b, f.files.lookup id = some b ∧ r = (b, { f with fileOps := f.fileOps + 1 }) := by
  unfold readFile
  cases hfault : env.fault f.fileOps with
  | some e => simp
  | none =>
    cases hfile : f.files.lookup id with
    | none => simp
    | some b => simp [eq_comm]

/-- The value of a key can be read: its file exists, holds text, and the read succeeds. -/
def Readable (env : Env) (f : Facilities) (key value : Str) : Prop :=
  env.fault f.fileOps = none ∧ ∃ id b, f.storage.lookup key = some id ∧
    f.files.lookup id = some b ∧ Utf8.decode b = some value

/-- A `GET` of a refused key is answered with a failure. -/
theorem processGet_refused {env : Env} {m : GetMsg} (hname : nameOk env m.key.toStr = false)
    (f : Facilities) : processGet env m f = .ok (answerGet m.key.toStr [] vmiFailure f) := by
  have hrefused : (!nameOk env m.key.toStr) = true := by simp [hname]
  unfold processGet
  rw [if_pos hrefused]

/-- A `GET` of an accepted key is answered exactly when its value can be read. -/
theorem processGet_eq_ok {env : Env} {m : GetMsg} (hname : nameOk env m.key.toStr = true)
    {f f' : Facilities} : processGet env m f = .ok f' ↔ ∃ value, Readable env f m.key.toStr value ∧
      f' = answerGet m.key.toStr value vmiSuccess { f with fileOps := f.fileOps + 1 } := by
  have haccepted : ¬ (!nameOk env m.key.toStr) = true := by simp [hname]
  unfold processGet Readable
  rw [if_neg haccepted]
  cases hid : f.storage.lookup m.key.toStr with
  | none => simp
  | some id =>
    simp only [Option.some.injEq]
    constructor
    · intro h
      obtain ⟨r, hread, h⟩ := bind_eq_ok.mp h
      obtain ⟨hfault, b, hfile, rfl⟩ := readFile_eq_ok.mp hread
      cases hdec : Utf8.decode b with
      | none => simp [hdec] at h
      | some value =>
        simp only [hdec, Except.ok.injEq] at h
        exact ⟨value, ⟨hfault, id, b, rfl, hfile, hdec⟩, h.symm⟩
    · rintro ⟨value, ⟨hfault, id', b, rfl, hfile, hdec⟩, rfl⟩
      refine bind_eq_ok.mpr ⟨_, readFile_eq_ok.mpr ⟨hfault, b, hfile, rfl⟩, ?_⟩
      simp [hdec]

/-! ### `process_set` -/

/-- Append a `SET_RET` to `fmsg_out`. -/
def answerSet (key : Str) (result : ℕ) (f : Facilities) : Facilities :=
  { f with fmsgOut := f.fmsgOut.addSetRet ⟨.str key, result⟩ }

/-- The second half of the `try` block: a new number, the charge, the entry and the file. -/
def writeNew (env : Env) (key value : Str) (f : Facilities) : Bool × Facilities :=
  let id := f.ioId
  -- the charge counts characters
  let f := { f with ioId := id + 1, diskUsage := f.diskUsage + value.length,
                    storage := f.storage.insert key id }
  f.writeFile env id (Utf8.encode value)

/-- The `try` block of `process_set`, and whether it comes to its end.  The file of an
    overwritten key is removed first. -/
def tryStore (env : Env) (key value : Str) (f : Facilities) : Bool × Facilities :=
  match f.storage.lookup key with
  | none => writeNew env key value f
  | some existing =>
    match f.getsize env existing with
    | (none, f) => (false, f)
    | (some s, f) =>
      -- the refund counts bytes
      let f := { f with diskUsage := f.diskUsage - s }
      match f.remove env existing with
      | (false, f) => (false, f)
      | (true, f) => writeNew env key value { f with storage := f.storage.erase key }

/-- The check of `process_set`: against the constant, and without what an overwritten key
    will give back. -/
def exceeds (f : Facilities) (value : Str) : Bool :=
  maxDiskUsageConst < f.diskUsage + (Utf8.encode value).length

/-- `process_set`. -/
def processSet (env : Env) (m : SetMsg) (f : Facilities) : Except PyError Facilities :=
  let key := m.key.toStr
  let value := m.value.toStr
  -- the reply of a refused key is given a value, which it has no field for
  if !nameOk env key then .error .attributeError
  else if exceeds f value then .ok (answerSet key vmiFailure f)
  else
    let (stored, f) := tryStore env key value f
    .ok (answerSet key (if stored then vmiSuccess else vmiFailure) f)

/-- A `SET` of a refused key raises. -/
theorem processSet_refused {env : Env} {m : SetMsg} (hname : nameOk env m.key.toStr = false)
    (f : Facilities) : processSet env m f = .error .attributeError := by
  have hrefused : (!nameOk env m.key.toStr) = true := by simp [hname]
  unfold processSet
  rw [if_pos hrefused]

/-- A `SET` of an accepted key is answered, whatever becomes of its value. -/
theorem processSet_accepted {env : Env} {m : SetMsg} (hname : nameOk env m.key.toStr = true)
    (f : Facilities) : processSet env m f = .ok
      (if exceeds f m.value.toStr then answerSet m.key.toStr vmiFailure f
        else answerSet m.key.toStr
          (if (tryStore env m.key.toStr m.value.toStr f).1 then vmiSuccess else vmiFailure)
          (tryStore env m.key.toStr m.value.toStr f).2) := by
  have haccepted : ¬ (!nameOk env m.key.toStr) = true := by simp [hname]
  unfold processSet
  rw [if_neg haccepted]
  by_cases hex : exceeds f m.value.toStr = true
  · rw [if_pos hex, if_pos hex]
  · rw [if_neg hex, if_neg hex]

/-! ### What a successful `SET` does -/

/-- The file of a key exists. -/
def FilesExist (f : Facilities) : Prop :=
  ∀ key id, f.storage.lookup key = some id → id ∈ f.files

/-- The size of the file of a key; `0` when the key is not stored. -/
def oldSize (f : Facilities) (key : Str) : ℕ :=
  ((f.storage.lookup key).bind f.files.lookup).elim 0 List.length

/-- The files without the one of a key. -/
def keptFiles (f : Facilities) (key : Str) : AList fun _ : ℕ => Bytes :=
  (f.storage.lookup key).elim f.files f.files.erase

/-- The state after `value` was stored under `key`, with `n` file operations done. -/
def store (key value : Str) (n : ℕ) (f : Facilities) : Facilities :=
  { f with storage := f.storage.insert key f.ioId, ioId := f.ioId + 1,
           diskUsage := f.diskUsage - oldSize f key + value.length,
           files := (keptFiles f key).insert f.ioId (Utf8.encode value), fileOps := n }

/-- **The `try` block stores.** When no file operation fails, and the file of an overwritten
    key is there, the block comes to its end and has stored the value. -/
theorem tryStore_eq {env : Env} (henv : env.Reliable) {f : Facilities} (hf : FilesExist f)
    (key value : Str) : ∃ n, tryStore env key value f = (true, store key value n f) := by
  unfold tryStore store oldSize keptFiles
  cases hkey : f.storage.lookup key with
  | none =>
    refine ⟨f.fileOps + 1, ?_⟩
    simp [writeNew, writeFile, henv _]
  | some id =>
    have hid := hf key id hkey
    obtain ⟨b, hb⟩ := Option.isSome_iff_exists.mp (AList.lookup_isSome.mpr hid)
    refine ⟨f.fileOps + 3, ?_⟩
    simp [writeNew, writeFile, getsize, remove, henv _, hid, hb, insert_erase_self]

end Furnace.Fac
