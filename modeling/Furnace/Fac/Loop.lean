import Furnace.Fac.Store

namespace Furnace.Fac

open Furnace.Lib Furnace.Lib.PyText

/-!
# The facilities loop

Messages from the app: `GET` and `SET` are served here, a `BE_MSG` goes on to the backend.
A synchronous packet has three frames and is answered; an asynchronous one has two.

* `fe2beProcessProtobuf` — one message; `fe2beProcessMsg` forwards.
* `inboundFE` — the branch of the loop that receives a packet from the app.
* `processTypes_eq` — the loop over the type list is a fold over the requests the entries
  stand for, with an `IndexError` at the first entry that stands for none.
* `Handled` — when a request is handled without an exception.
-/

/-- `fe2be_process_msg`. -/
def fe2beProcessMsg (env : Env) (sync : Bool) (m : BeMsg) (f : Facilities) :
    Except PyError Facilities := do
  let value ← m.value.assign
  let f := { f with forwarded := f.forwarded ++ [.ofBeMsg ⟨m.status, .str value⟩] }
  if sync then
    let (r, _) ← popFrom (env.backend f.forwarded).beMsgRet
    let value ← r.value.assign
    -- `fmsg_out` is cleared first, whatever earlier requests have put there
    .ok { f with fmsgOut := .ofBeMsgRet ⟨r.status, .str value⟩ }
  else .ok f

/-- The body of the loop of `fe2be_process_protobuf`, after the sub-message was taken. -/
def handle (env : Env) (sync : Bool) (f : Facilities) (r : Request) : Except PyError Facilities :=
  match r with
  | .beMsg m => fe2beProcessMsg env sync m f
  | .get m => processGet env m f
  | .set m => processSet env m f
  | _ => .ok f

/-- The loop over the types that are left; `M` holds the sub-messages that are left. -/
def processTypes (env : Env) (sync : Bool) : List FacType → FacMessage → Facilities →
    Except PyError Facilities
  | [], _, f => .ok f
  | t :: ts, M, f => do
    let (r, M) ← M.pop t
    let f ← handle env sync f r
    processTypes env sync ts M f

/-- `fe2be_process_protobuf`, and the state it leaves. -/
def fe2beProcessProtobuf (env : Env) (raw : Bytes) (sync : Bool) (f : Facilities) :
    Except PyError (Bytes × Facilities) := do
  let M ← env.parse raw
  let f ← processTypes env sync M.type M { f with fmsgOut := {} }
  .ok (env.serialize f.fmsgOut, f)

/-- The loop's branch for the frontend, for a packet `pkt`. -/
def inboundFE (env : Env) (pkt : List Bytes) (f : Facilities) : Except PyError Facilities :=
  match pkt with
  | [ident, _, raw] => do
    let (rawOut, f) ← fe2beProcessProtobuf env raw true f
    -- both frames are bytes already
    let ident ← bytesEncode ident
    let rawOut ← bytesEncode rawOut
    .ok { f with sent := f.sent ++ [[ident, [], rawOut]] }
  | [_, raw] => do
    let (_, f) ← fe2beProcessProtobuf env raw false f
    .ok f
  | _ => .ok f

/-! ### The loop over the types -/

/-- **The loop is a fold** over the requests that the type entries stand for. -/
theorem processTypes_eq (env : Env) (sync : Bool) (ts : List FacType) (M : FacMessage)
    (f : Facilities) :
    processTypes env sync ts M f =
      ((M.requests ts).1.foldlM (handle env sync) f >>= fun f =>
        if (M.requests ts).2 then .error .indexError else .ok f) := by
  induction ts generalizing M f with
  | nil => rfl
  | cons t ts ih =>
    unfold processTypes FacMessage.requests
    cases hpop : M.pop t with
    | error e =>
      have he := FacMessage.pop_error hpop
      subst he
      rfl
    | ok r =>
      show (handle env sync f r.1 >>= fun f => processTypes env sync ts r.2 f) = _
      rw [List.foldlM_cons, bind_assoc]
      congr 1
      funext f'
      exact ih r.2 f'

/-! ### Requests that are handled -/

/-- **When a request is handled without an exception**: a `GET` of a key that is refused or
    can be read, a `SET` of a key that is accepted, a `BE_MSG` whose value is text. -/
def Handled (env : Env) (f : Facilities) : Request → Prop
  | .get m => nameOk env m.key.toStr = true → ∃ value, Readable env f m.key.toStr value
  | .set m => nameOk env m.key.toStr = true
  | .beMsg m => ∃ s, m.value = .str s
  | _ => True

/-- The backend answers every message that is forwarded. -/
def Env.Answers (env : Env) : Prop :=
  ∀ ms, ∃ r rs s, (env.backend ms).beMsgRet = r :: rs ∧ r.value = .str s

/-- A `GET` is answered exactly when its key is refused or can be read. -/
theorem processGet_ok_iff {env : Env} {m : GetMsg} {f : Facilities} :
    (∃ f', processGet env m f = .ok f') ↔
      (nameOk env m.key.toStr = true → ∃ value, Readable env f m.key.toStr value) := by
  cases hname : nameOk env m.key.toStr with
  | false => simp [processGet_refused hname]
  | true => simp [processGet_eq_ok hname]

/-- A `SET` is answered exactly when its key is accepted. -/
theorem processSet_ok_iff {env : Env} {m : SetMsg} {f : Facilities} :
    (∃ f', processSet env m f = .ok f') ↔ nameOk env m.key.toStr = true := by
  cases hname : nameOk env m.key.toStr with
  | false => simp [processSet_refused hname]
  | true => simp [processSet_accepted hname]

/-- A `BE_MSG` is forwarded exactly when its value is text. -/
theorem fe2beProcessMsg_ok_iff {env : Env} {sync : Bool} (hb : sync = true → env.Answers)
    {m : BeMsg} {f : Facilities} :
    (∃ f', fe2beProcessMsg env sync m f = .ok f') ↔ ∃ s, m.value = .str s := by
  unfold fe2beProcessMsg
  cases hval : m.value with
  | bytes b => simp [PyStr.assign, bind, Except.bind]
  | str s =>
    refine ⟨fun _ => ⟨s, rfl⟩, fun _ => ?_⟩
    cases sync with
    | false => exact ⟨_, rfl⟩
    | true =>
      obtain ⟨r, rs, v, hr, hv⟩ := hb rfl (f.forwarded ++ [.ofBeMsg ⟨m.status, .str s⟩])
      simp [PyStr.assign, bind, Except.bind, hr, hv, popFrom]

/-- **Which requests are handled.** -/
theorem handle_ok_iff {env : Env} {sync : Bool} (hb : sync = true → env.Answers) {r : Request}
    {f : Facilities} : (∃ f', handle env sync f r = .ok f') ↔ Handled env f r := by
  cases r with
  | get m => exact processGet_ok_iff
  | set m => exact processSet_ok_iff
  | beMsg m => exact fe2beProcessMsg_ok_iff hb
  | getRet m | setRet m | beMsgRet m => exact ⟨fun _ => trivial, fun _ => ⟨f, rfl⟩⟩

/-- All requests are handled, each in the state that the earlier ones have left. -/
def AllHandled (env : Env) (sync : Bool) : List Request → Facilities → Prop
  | [], _ => True
  | r :: rs, f => Handled env f r ∧ ∀ f', handle env sync f r = .ok f' → AllHandled env sync rs f'

/-- A fold comes to its end exactly when all of its requests are handled. -/
theorem foldlM_handle_ok_iff {env : Env} {sync : Bool} (hb : sync = true → env.Answers)
    {rs : List Request} {f : Facilities} :
    (∃ f', rs.foldlM (handle env sync) f = .ok f') ↔ AllHandled env sync rs f := by
  induction rs generalizing f with
  | nil => exact ⟨fun _ => trivial, fun _ => ⟨f, rfl⟩⟩
  | cons r rs ih =>
    rw [List.foldlM_cons]
    constructor
    · rintro ⟨f', h⟩
      obtain ⟨f₁, hr, hrs⟩ := bind_eq_ok.mp h
      refine ⟨(handle_ok_iff hb).mp ⟨f₁, hr⟩, fun f₂ hr₂ => ?_⟩
      have heq : f₂ = f₁ := Except.ok.inj (hr₂.symm.trans hr)
      subst heq
      exact ih.mp ⟨f', hrs⟩
    · rintro ⟨hr, hrs⟩
      obtain ⟨f₁, hr⟩ := (handle_ok_iff hb).mpr hr
      obtain ⟨f', hf'⟩ := ih.mpr (hrs f₁ hr)
      exact ⟨f', bind_eq_ok.mpr ⟨f₁, hr, hf'⟩⟩

end Furnace.Fac
