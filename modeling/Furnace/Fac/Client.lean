import Furnace.Fac.Replies

namespace Furnace.Fac

open Furnace.Lib Furnace.Lib.PyText

/-!
# Storing data from an app

`FE.io_set` and `FE.io_get`: the app's side of the facilities store.  Both send one request,
wait for its reply, and take the first sub-message of that.  `io_set` compares the key of the
reply and returns; `io_get` looks at the result, and then decodes a text as if it were bytes.

* `serveRequest` — `fe2be_process_protobuf` between the parser and the serializer.
* `ioSet`, `ioGet` — the API calls, together with the facilities partition's part of them.
* `ioSet_stores` — what has become of the data when `io_set` returns.
* `SetSound` — `io_set` succeeds only when the data is stored.
-/

/-! ### Arguments -/

/-- An argument of the app's: a text, one with a lone surrogate, which has no UTF-8, or not a
    `str` at all. -/
inductive Arg
  | text (s : Str) | surrogate | other
  deriving DecidableEq

/-- The exceptions that the API calls raise. -/
inductive ApiError
  | typeError | unicodeEncodeError | indexError | attributeError | exception
  deriving DecidableEq, Repr

/-- `check_encoding`. -/
def checkEncoding : Arg → Except ApiError Unit
  | .text _ | .surrogate => .ok ()
  | .other => .error .typeError

/-- `x.encode()`, as the text that a string field makes of it again. -/
def Arg.encode : Arg → Except ApiError Str
  | .text s => .ok s
  | .surrogate => .error .unicodeEncodeError
  | .other => .error .attributeError

/-- `s.decode()` on a text, which has no such method. -/
def strDecode (_ : Str) : Except ApiError Str := .error .attributeError

/-! ### The API calls -/

/-- What the facilities partition makes of a synchronous message, between the parsing of its
    bytes and the serializing of the reply. -/
def serveRequest (env : Env) (M : FacMessage) (f : Facilities) :
    Except PyError (FacMessage × Facilities) := do
  let f ← processTypes env true M.type M { f with fmsgOut := {} }
  .ok (f.fmsgOut, f)

/-- How an API call ends: it returns, it raises, or it waits for a reply that never comes
    because the facilities runtime has ended with an exception. -/
inductive Ending (α : Type)
  | returned (a : α) (f : Facilities)
  | raised (e : ApiError) (f : Facilities)
  | waits

/-- The message of one `SET`. -/
def setRequest (key value : Str) : FacMessage :=
  { type := [.set], set := [⟨.str key, .str value⟩] }

/-- The message of one `GET`. -/
def getRequest (key : Str) : FacMessage := { type := [.get], get := [⟨.str key⟩] }

/-- What `io_set` does before it sends anything. -/
def setArguments (key val : Arg) : Except ApiError (Str × Str) := do
  checkEncoding key
  checkEncoding val
  let k ← key.encode
  let v ← val.encode
  .ok (k, v)

/-- What `io_get` does before it sends anything. -/
def getArguments (key : Arg) : Except ApiError Str := do
  checkEncoding key
  key.encode

/-- `io_set`. -/
def ioSet (env : Env) (key val : Arg) (f : Facilities) : Ending Str :=
  match setArguments key val with
  | .error e => .raised e f
  | .ok (k, v) =>
    match serveRequest env (setRequest k v) f with
    | .error _ => .waits
    | .ok (fmsg, f) =>
      match fmsg.setRet with
      | [] => .raised .indexError f
      -- the result is read, and not looked at
      | r :: _ => if r.key = .str k then .returned k f else .raised .exception f

/-- `io_get`. -/
def ioGet (env : Env) (key : Arg) (f : Facilities) : Ending Str :=
  match getArguments key with
  | .error e => .raised e f
  | .ok k =>
    match serveRequest env (getRequest k) f with
    | .error _ => .waits
    | .ok (fmsg, f) =>
      match fmsg.getRet with
      | [] => .raised .indexError f
      | r :: _ =>
        if r.result = vmiFailure then .raised .exception f
        else if r.key ≠ .str k then .raised .exception f
        else match strDecode r.value.toStr with
        | .error e => .raised e f
        | .ok value => .returned value f

/-! ### One exchange -/

/-- The parser and the serializer around a request. -/
theorem fe2beProcessProtobuf_eq {env : Env} {raw : Bytes} {M : FacMessage}
    (hraw : env.parse raw = .ok M) (f : Facilities) :
    fe2beProcessProtobuf env raw true f =
      (serveRequest env M f).map fun r => (env.serialize r.1, r.2) := by
  unfold fe2beProcessProtobuf serveRequest
  rw [hraw]
  show processTypes env true M.type M { f with fmsgOut := {} } >>= _ = _
  cases processTypes env true M.type M { f with fmsgOut := {} } <;> rfl

theorem serveRequest_set (env : Env) (k v : Str) (f : Facilities) :
    serveRequest env (setRequest k v) f =
      (processSet env ⟨.str k, .str v⟩ { f with fmsgOut := {} }).map fun f => (f.fmsgOut, f) := by
  show (processSet env _ _ >>= _) >>= _ = _
  cases processSet env ⟨.str k, .str v⟩ { f with fmsgOut := {} } <;> rfl

theorem serveRequest_get (env : Env) (k : Str) (f : Facilities) :
    serveRequest env (getRequest k) f =
      (processGet env ⟨.str k⟩ { f with fmsgOut := {} }).map fun f => (f.fmsgOut, f) := by
  show (processGet env _ _ >>= _) >>= _ = _
  cases processGet env ⟨.str k⟩ { f with fmsgOut := {} } <;> rfl

/-! ### What the API calls do -/

section Calls

variable {env : Env} {f f' : Facilities} {k v : Str}

/-- The reply to a `SET` has the key of the request. -/
theorem processSet_reply
    (h : processSet env ⟨.str k, .str v⟩ { f with fmsgOut := {} } = .ok f') :
    ∃ r, f'.fmsgOut.setRet = [r] ∧ r.key = .str k := by
  have hhandle : handle env true { f with fmsgOut := {} } (.set ⟨.str k, .str v⟩) = .ok f' := h
  have happ := handle_appends (r := .set ⟨.str k, .str v⟩) trivial rfl hhandle
  have hkeys : f'.fmsgOut.setRet.map (·.key) = [PyStr.str k] := happ.setRet_eq
  exact List.map_eq_singleton_iff.mp hkeys

/-- **`io_set` returns whenever there is a reply.** -/
theorem ioSet_text (env : Env) (k v : Str) (f : Facilities) :
    ioSet env (.text k) (.text v) f =
      match processSet env ⟨.str k, .str v⟩ { f with fmsgOut := {} } with
      | .error _ => .waits
      | .ok f' => .returned k f' := by
  show (match serveRequest env (setRequest k v) f with | .error _ => _ | .ok (fmsg, f) => _) = _
  rw [serveRequest_set]
  cases h : processSet env ⟨.str k, .str v⟩ { f with fmsgOut := {} } with
  | error e => rfl
  | ok f' =>
    obtain ⟨r, hret, hkey⟩ := processSet_reply h
    show (match f'.fmsgOut.setRet with | [] => _ | r :: _ => _) = _
    rw [hret]
    show (if r.key = .str k then _ else _) = _
    rw [if_pos hkey]

/-- A refused key ends the facilities runtime, and `io_set` waits. -/
theorem ioSet_refused (hname : nameOk env k = false) :
    ioSet env (.text k) (.text v) f = .waits := by
  rw [ioSet_text, processSet_refused hname]

/-- An accepted key makes `io_set` return, whatever becomes of the data. -/
theorem ioSet_accepted (hname : nameOk env k = true) :
    ∃ f', ioSet env (.text k) (.text v) f = .returned k f' ∧
      processSet env ⟨.str k, .str v⟩ { f with fmsgOut := {} } = .ok f' := by
  have hset := processSet_accepted (m := ⟨.str k, .str v⟩) hname { f with fmsgOut := {} }
  refine ⟨_, ?_, hset⟩
  rw [ioSet_text, hset]

/-- **What has become of the data** when `io_set` returns: it is stored, or it was over the
    quota and nothing has changed. -/
theorem ioSet_stores (henv : env.Reliable) (hf : Coherent f) {k' : Str}
    (h : ioSet env (.text k) (.text v) f = .returned k' f') :
    (exceeds f v = true ∧ contents f' = contents f) ∨
      (exceeds f v = false ∧ contents f' = Function.update (contents f) k (some v)) := by
  rw [ioSet_text] at h
  split at h
  · cases h
  · rename_i f₁ hset
    cases h
    have hcleared : SameStore f { f with fmsgOut := {} } := ⟨rfl, rfl, rfl, rfl, rfl⟩
    have hcoherent := hcleared.coherent hf
    obtain ⟨-, ⟨hex, rfl⟩ | ⟨hex, n, rfl⟩⟩ := processSet_spec henv hcoherent.filesExist hset
    · exact .inl ⟨hex, (sameStore_answerSet _ _ _).contents.trans hcleared.contents⟩
    · refine .inr ⟨hex, (sameStore_answerSet _ _ _).contents.trans ?_⟩
      rw [contents_store hcoherent, hcleared.contents]
      rfl

/-- The value of a stored key comes back as it was stored, up to the last conversion. -/
theorem getRequest_of_contents (henv : env.Reliable) (hname : nameOk env k = true)
    (hval : contents f k = some v) :
    ∃ f', serveRequest env (getRequest k) f =
      .ok (FacMessage.addGetRet {} ⟨.str k, .str v, vmiSuccess⟩, f') := by
  obtain ⟨f₁, hget, hout⟩ :=
    processGet_of_contents (f := { f with fmsgOut := {} }) henv hname hval
  refine ⟨f₁, ?_⟩
  rw [serveRequest_get, hget]
  show Except.ok (f₁.fmsgOut, f₁) = _
  rw [hout]

/-- The last conversion fails, so that `io_get` raises also when the data is there. -/
theorem ioGet_of_contents (henv : env.Reliable) (hname : nameOk env k = true)
    (hval : contents f k = some v) :
    ∃ f', ioGet env (.text k) f = .raised .attributeError f' := by
  obtain ⟨f₁, hserve⟩ := getRequest_of_contents henv hname hval
  refine ⟨f₁, ?_⟩
  show (match serveRequest env (getRequest k) f with | .error _ => _ | .ok (fmsg, f) => _) = _
  rw [hserve]
  show (if vmiSuccess = vmiFailure then _ else if PyStr.str k ≠ .str k then _ else _) = _
  rw [if_neg (by decide), if_neg (by simp)]
  rfl

/-- **`io_get` never returns.** -/
theorem ioGet_not_returned (env : Env) (key : Arg) (f f' : Facilities) (value : Str) :
    ioGet env key f ≠ .returned value f' := by
  intro h
  unfold ioGet at h
  split at h
  · cases h
  · split at h
    · cases h
    · split at h
      · cases h
      · dsimp only [strDecode] at h
        split at h
        · cases h
        · split at h <;> cases h

/-- Arguments that are not texts with an encoding are refused before anything is sent. -/
theorem ioSet_not_text {key val : Arg} (h : ¬∃ k v, key = .text k ∧ val = .text v) :
    ∃ e, ioSet env key val f = .raised e f := by
  cases key with
  | text k =>
    cases val with
    | text v => exact absurd ⟨k, v, rfl, rfl⟩ h
    | surrogate => exact ⟨.unicodeEncodeError, rfl⟩
    | other => exact ⟨.typeError, rfl⟩
  | surrogate =>
    cases val with
    | text v => exact ⟨.unicodeEncodeError, rfl⟩
    | surrogate => exact ⟨.unicodeEncodeError, rfl⟩
    | other => exact ⟨.typeError, rfl⟩
  | other => exact ⟨.typeError, rfl⟩

end Calls

/-! ### Success and failure -/

/-- The facilities partition refuses the data, or fails to store it. -/
def Refuses (env : Env) (f : Facilities) (key value : Str) : Prop :=
  nameOk env key = false ∨ exceeds f value = true ∨ (tryStore env key value f).1 = false

/-- `io_set` succeeds only when the data is stored: when it returns, an `io_get` performed next
    returns the data, and when the data is refused or not stored, it raises. -/
def SetSound (env : Env) (f : Facilities) (key val : Arg) : Prop :=
  (∀ k f', ioSet env key val f = .returned k f' →
    ∃ value f'', val = .text value ∧ ioGet env key f' = .returned value f'') ∧
  ∀ k v, key = .text k → val = .text v → Refuses env f k v →
    ∃ e f', ioSet env key val f = .raised e f'

/-- **`io_set` is sound only when nothing is sent.** In every state of the facilities
    partition, and whether or not its file operations succeed, an `io_set` of texts either
    returns, though no `io_get` ever will, or waits for a runtime that has ended. -/
theorem set_sound_iff (env : Env) (f : Facilities) (key val : Arg) :
    SetSound env f key val ↔ ¬∃ k v, key = .text k ∧ val = .text v := by
  constructor
  · rintro ⟨hreturned, hrefused⟩ ⟨k, v, rfl, rfl⟩
    cases hname : nameOk env k with
    | true =>
      obtain ⟨f', hset, -⟩ := ioSet_accepted (f := f) (v := v) hname
      obtain ⟨value, f'', -, hget⟩ := hreturned k f' hset
      exact ioGet_not_returned env _ _ _ _ hget
    | false =>
      obtain ⟨e, f', hraised⟩ := hrefused k v rfl rfl (.inl hname)
      rw [ioSet_refused hname] at hraised
      cases hraised
  · intro hnot
    constructor
    · intro k f' hset
      obtain ⟨e, hraised⟩ : ∃ e, ioSet env key val f = .raised e f := ioSet_not_text hnot
      rw [hraised] at hset
      cases hset
    · rintro k v rfl rfl -
      exact absurd ⟨k, v, rfl, rfl⟩ hnot

/-- A value over the quota, a refused key, and a value that is stored. -/
theorem set_sound_fails :
    (∃ f', ioSet ackEnv (.text ['k']) (.text ['v'])
        { Facilities.fresh 100 ∅ with diskUsage := maxDiskUsageConst } = .returned ['k'] f' ∧
      contents f' ['k'] = none) ∧
    ioSet ackEnv (.text ['k', '/']) (.text ['v']) (.fresh 100 ∅) = .waits ∧
    (∃ f' f'', ioSet ackEnv (.text ['k']) (.text ['v']) (.fresh 100 ∅) = .returned ['k'] f' ∧
      contents f' ['k'] = some ['v'] ∧
      ioGet ackEnv (.text ['k']) f' = .raised .attributeError f'') ∧
    ¬∀ env f k v, SetSound env f (.text k) (.text v) := by
  refine ⟨⟨_, rfl, rfl⟩, rfl, ⟨_, _, rfl, rfl, rfl⟩, fun h => ?_⟩
  have hsound := h ackEnv (.fresh 100 ∅) ['k', '/'] ['v']
  obtain ⟨e, f', hraised⟩ := hsound.2 _ _ rfl rfl (.inl rfl)
  cases hraised

end Furnace.Fac
