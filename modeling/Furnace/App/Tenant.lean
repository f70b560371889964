import Furnace.App.Buffers
import Furnace.Lib.Program

namespace Furnace.App

open Furnace.Proto Furnace.Lib Furnace.Vmi

/-!
# The code of a tenant

An app is Python code that calls the frontend.  Its functions are programs over the state of the
app and the VMI partition behind the frontend: an API call waits for its reply, an exception leaves
what was done before it, and a fault of the VMI partition leaves the app waiting for ever.

* `AppM` — the programs of an app with the members `S`.
* `ask` — an API call that asks the VMI partition for something.
* `Readings` — what a guest that holds still gives for every address, readable or not.
* `readAddrVa_runs`, `read32Va_runs`, `readStrVa_runs` — the three reads of such a guest, with the
  addresses that the app may come up with.
-/

variable {G S : Type}

/-! ### Programs of an app -/

/-- The VMI partition, the frontend and the members of the app. -/
structure Tenant (G S : Type) where
  vmi : World G
  fe : FE
  self : S

/-- What a function of an app does. -/
abbrev AppM (G S α : Type) := Prog Fault (Tenant G S) PyError α

/-- An API call of the app's. -/
def ask (env : Env G) (q : ApiQuery) : AppM G S Value := .ofFun fun t => do
  let ans ← q.run env t.fe t.vmi
  .ok (ans.result, { t with vmi := ans.vmi })

/-- A result that the app counts with. -/
def Value.asInt : Value → Except PyError ℤ
  | .int n => .ok n
  | _ => .error .typeError

/-- An API call that returns an `int`. -/
def askInt (env : Env G) (q : ApiQuery) : AppM G S ℤ := do
  let v ← ask env q
  match v.asInt with
  | .ok n => pure n
  | .error e => throw e

/-- The app changes its members. -/
def setSelf (f : S → S) : AppM G S PUnit := modify fun t => { t with self := f t.self }

/-- After an operation that was made for the app. -/
def Tenant.after (t : Tenant G S) (env : Env G) (op : ExtOp) : Tenant G S :=
  { t with vmi := ((t.fe.asking t.vmi).exec env op).2 }

@[simp] theorem after_self (t : Tenant G S) (env : Env G) (op : ExtOp) :
    (t.after env op).self = t.self := rfl
@[simp] theorem after_fe (t : Tenant G S) (env : Env G) (op : ExtOp) :
    (t.after env op).fe = t.fe := rfl
@[simp] theorem after_guest (t : Tenant G S) (env : Env G) (op : ExtOp) :
    (t.after env op).vmi.guest = (env.exec op t.vmi.guest).2 := rfl
@[simp] theorem after_ops (t : Tenant G S) (env : Env G) (op : ExtOp) :
    (t.after env op).vmi.ops = t.vmi.ops ++ [op] := rfl

section Ask

variable {env : Env G} {t : Tenant G S} {q : ApiQuery}

theorem ask_runs {ans : QueryAnswer G} (h : q.run env t.fe t.vmi = .ok ans) :
    Runs (ask env q) t ans.result { t with vmi := ans.vmi } := by
  rw [ask, runs_ofFun, h]
  rfl

/-- A number comes back as a number. -/
theorem askInt_runs {w : World G} {n : ℤ} (h : q.run env t.fe t.vmi = .ok ⟨w, .ok (.int n)⟩) :
    Runs (askInt env q) t (.ok n) { t with vmi := w } :=
  (ask_runs h).bind (runs_pure n _)

/-- An exception of the API call is one of the app's, if it does not catch it. -/
theorem askInt_raises {w : World G} {e : PyError} (h : q.run env t.fe t.vmi = .ok ⟨w, .error e⟩) :
    Runs (askInt env q) t (.error e) { t with vmi := w } :=
  Runs.bind_raises (ask_runs h)

end Ask

/-! ### A guest that holds still -/

/-- What the reads of process `0` give at every address, the addresses that cannot be read
    included. -/
structure Readings where
  pointer : UInt64 → UInt64
  word : UInt64 → UInt32
  string : UInt64 → Bytes

/-- In the states `held` of the guest the reads give this, and lead to such states again. -/
structure Readings.HeldBy (rd : Readings) (env : Env G) (held : G → Prop) : Prop where
  pointer : ∀ g a, held g → (env.exec (.readAddr (.va a 0)) g).1.2.getD 0 = rd.pointer a ∧
    held (env.exec (.readAddr (.va a 0)) g).2
  word : ∀ g a, held g → ((env.exec (.readNum .w32 (.va a 0)) g).1.2.getD 0).toUInt32 = rd.word a ∧
    held (env.exec (.readNum .w32 (.va a 0)) g).2
  string : ∀ g a, held g → (env.exec (.readStr (.va a 0)) g).1.getD [] = rd.string a ∧
    held (env.exec (.readStr (.va a 0)) g).2

/-! ### The requests of reads -/

/-- A number that an address field takes. -/
def IsAddress (n : ℤ) : Prop := 0 ≤ n ∧ n < 2 ^ 64

instance (n : ℤ) : Decidable (IsAddress n) := inferInstanceAs (Decidable (_ ∧ _))

theorem isAddress_toNat (a : UInt64) : IsAddress a.toNat := by
  have hlt := a.toNat_lt
  unfold IsAddress
  omega

/-- The address that the number stands for. -/
def addressOf (n : ℤ) : UInt64 := .ofNat n.toNat

theorem toNat_addressOf {n : ℤ} (h : IsAddress n) : ((addressOf n).toNat : ℤ) = n := by
  obtain ⟨hpos, hlt⟩ := h
  unfold addressOf
  rw [UInt64.toNat_ofNat', Nat.mod_eq_of_lt (by omega)]
  omega

@[simp] theorem addressOf_toNat (a : UInt64) : addressOf a.toNat = a := by
  unfold addressOf
  rw [Int.toNat_natCast, UInt64.ofNat_toNat]

section Reads

variable {env : Env G} {t : Tenant G S} {rd : Readings} {held : G → Prop}

/-- A negative number or one of more than 64 bits is refused, before anything is sent. -/
theorem atVa_refused {c : Call} {n : ℤ} (hrep : isRepeated c.num = true)
    (hc : c.requestFields.find? (fun fd => fd.name = .vaddr) = some ⟨.vaddr, 1, .uint64⟩)
    (hn : ¬IsAddress n) : vmmsgHelper c (atVa (.ok n) (.ok 0)) = .error .valueError := by
  have hrange : checkValue .uint64 (.int n) = .error .valueError := if_neg hn
  exact vmmsgHelper_error hrep (setFields_cons_error rfl hc hrange)

/-- The request of a read. -/
theorem readVa_request {c : Call} (hrep : isRepeated c.num = true)
    (hc : c.requestFields = Space.va.readFields) (a : UInt64) :
    ∃ m, vmmsgHelper c (atVa (.ok a.toNat) (.ok 0)) = .ok (VMIMessage.empty.addCall c m) ∧
      location .va m = some (.va a 0) := by
  obtain ⟨m, hset, hm⟩ := (Place.va a 0).assign
  have hset : (atVa (.ok a.toNat) (.ok 0)).foldlM (setField c.requestFields) Msg.empty = .ok m := by
    rw [hc]
    exact hset
  exact ⟨m, vmmsgHelper_ok hrep hset, Place.location_eq hm⟩

/-- A read that is refused raises, and nothing has been asked. -/
theorem askInt_refused {q : ApiQuery} (hreq : q.query.request = .error .valueError) :
    Runs (askInt env q) t (.error .valueError) t :=
  askInt_raises (ApiQuery.run_refused hreq)

/-- What the handlers of the three reads answer, whether the read succeeds or not. -/
theorem readAddrBody_answers (env : Env G) {m : Msg} {a : UInt64}
    (hl : location .va m = some (.va a 0)) (w : World G) : readAddrBody .va env (.ok m) w =
      .ok ((w.exec env (.readAddr (.va a 0))).2, .ok (resultWith
        (.u64 ((env.exec (.readAddr (.va a 0)) w.guest).1.2.getD 0))
        (env.exec (.readAddr (.va a 0)) w.guest).1.1)) := by
  unfold readAddrBody reading
  rw [ok_bind]
  dsimp only
  rw [hl]
  rfl

theorem read32Body_answers (env : Env G) {m : Msg} {a : UInt64}
    (hl : location .va m = some (.va a 0)) (w : World G) : readNumBody .w32 .va env (.ok m) w =
      .ok ((w.exec env (.readNum .w32 (.va a 0))).2, .ok (resultWith
        (.u32 ((env.exec (.readNum .w32 (.va a 0)) w.guest).1.2.getD 0).toUInt32)
        (env.exec (.readNum .w32 (.va a 0)) w.guest).1.1)) := by
  unfold readNumBody reading
  rw [ok_bind]
  dsimp only
  rw [hl]
  rfl

/-- The reply to a read of a string: one that cannot be read leaves the result unset. -/
def stringReply : Option Bytes → Msg
  | some str => resultWith (.str str) .success
  | none => statusOnly .failure

theorem readStrBody_answers (env : Env G) {m : Msg} {a : UInt64}
    (hl : location .va m = some (.va a 0)) (w : World G) : readStrBody .va env (.ok m) w =
      .ok ((w.exec env (.readStr (.va a 0))).2,
        .ok (stringReply (env.exec (.readStr (.va a 0)) w.guest).1)) := by
  unfold readStrBody reading
  rw [ok_bind]
  dsimp only
  rw [hl]
  dsimp only [World.exec]
  cases (env.exec (.readStr (.va a 0)) w.guest).1 <;> rfl

/-- **`read_addr_va`** of a guest that holds still. -/
theorem readAddrVa_runs (hheld : rd.HeldBy env held) (hg : held t.vmi.guest) (a : UInt64) :
    Runs (askInt env (.readAddrVa (.ok a.toNat) (.ok 0))) t (.ok (rd.pointer a).toNat)
      (t.after env (.readAddr (.va a 0))) := by
  obtain ⟨m, hreq, hl⟩ := readVa_request (c := .readAddr .va) rfl rfl a
  have hbody := readAddrBody_answers env hl (t.fe.asking t.vmi)
  rw [asking_guest, (hheld.pointer _ _ hg).1] at hbody
  exact askInt_runs (ApiQuery.run_eq rfl hreq hbody (intResult_record rfl rfl rfl))

theorem readAddrVa_refused {n : ℤ} (hn : ¬IsAddress n) :
    Runs (askInt env (.readAddrVa (.ok n) (.ok 0))) t (.error .valueError) t :=
  askInt_refused (atVa_refused (c := .readAddr .va) rfl rfl hn)

/-- **`read_32_va`** of a guest that holds still. -/
theorem read32Va_runs (hheld : rd.HeldBy env held) (hg : held t.vmi.guest) (a : UInt64) :
    Runs (askInt env (.read32Va (.ok a.toNat) (.ok 0))) t (.ok (rd.word a).toNat)
      (t.after env (.readNum .w32 (.va a 0))) := by
  obtain ⟨m, hreq, hl⟩ := readVa_request (c := .readNum .w32 .va) rfl rfl a
  have hbody := read32Body_answers env hl (t.fe.asking t.vmi)
  rw [asking_guest, (hheld.word _ _ hg).1] at hbody
  exact askInt_runs (ApiQuery.run_eq rfl hreq hbody (intResult_record rfl rfl rfl))

theorem read32Va_refused {n : ℤ} (hn : ¬IsAddress n) :
    Runs (askInt env (.read32Va (.ok n) (.ok 0))) t (.error .valueError) t :=
  askInt_refused (atVa_refused (c := .readNum .w32 .va) rfl rfl hn)

/-- **`read_str_va`** of a guest that holds still: a string that cannot be read is empty. -/
theorem readStrVa_runs (hheld : rd.HeldBy env held) (hg : held t.vmi.guest) (a : UInt64) :
    Runs (ask env (.readStrVa (.ok a.toNat) (.ok 0))) t (.ok (.field (.str (rd.string a))))
      (t.after env (.readStr (.va a 0))) := by
  obtain ⟨m, hreq, hl⟩ := readVa_request (c := .readStr .va) rfl rfl a
  have hbody := readStrBody_answers env hl (t.fe.asking t.vmi)
  rw [asking_guest] at hbody
  have hresult : plainResult (.readStr .va) (record VMIMessage.empty (Call.readStr .va).replyNum
      (.ok (stringReply (env.exec (.readStr (.va a 0)) t.vmi.guest).1)) 0) =
      .ok (.field (.str (rd.string a))) := by
    rw [← (hheld.string _ _ hg).1]
    cases (env.exec (.readStr (.va a 0)) t.vmi.guest).1 <;> rfl
  have hrun : (ApiQuery.readStrVa (.ok a.toNat) (.ok 0)).run env t.fe t.vmi = _ :=
    ApiQuery.run_eq rfl hreq hbody hresult
  exact ask_runs hrun

theorem readStrVa_refused {n : ℤ} (hn : ¬IsAddress n) :
    Runs (ask env (.readStrVa (.ok n) (.ok 0))) t (.error .valueError) t := by
  have hrun : (ApiQuery.readStrVa (.ok n) (.ok 0)).run env t.fe t.vmi = _ :=
    ApiQuery.run_refused (atVa_refused (c := .readStr .va) rfl rfl hn)
  exact ask_runs hrun

/-! ### Pausing -/

/-- `pause_vm` and `resume_vm` do as they say. -/
theorem pauseVm_runs (env : Env G) (t : Tenant G S) :
    Runs (ask env .pauseVm) t (.ok .nothing) (t.after env .pause) := by
  have hreq : vmmsgHelper .pauseVm [(.status, .one)] = .ok (VMIMessage.empty.addCall .pauseVm
      (Msg.empty.set .status (.i32 1))) := rfl
  have hrun : ApiQuery.pauseVm.run env t.fe t.vmi = .ok ⟨(t.after env .pause).vmi, .ok .nothing⟩ :=
    ApiQuery.run_eq rfl hreq rfl rfl
  exact ask_runs hrun

theorem resumeVm_runs (env : Env G) (t : Tenant G S) :
    Runs (ask env .resumeVm) t (.ok .nothing) (t.after env .resume) := by
  have hreq : vmmsgHelper .resumeVm [(.status, .one)] = .ok (VMIMessage.empty.addCall .resumeVm
      (Msg.empty.set .status (.i32 1))) := rfl
  have hrun : ApiQuery.resumeVm.run env t.fe t.vmi =
      .ok ⟨(t.after env .resume).vmi, .ok .nothing⟩ := ApiQuery.run_eq rfl hreq rfl rfl
  exact ask_runs hrun

end Reads

end Furnace.App
