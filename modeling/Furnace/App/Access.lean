import Furnace.App.Queries

namespace Furnace.App

open Furnace.Proto Furnace.Lib Furnace.Vmi
open Furnace.Lib.PyText (Str)

/-!
# Fixed-width memory access

`write_8_pa` to `write_64_ksym` and the reads of the same names, from the app's integer to
LibVMI and back.  On its way a value is an `int32` or `int64` of the request, an unsigned C
integer of the width, and an unsigned field of the reply.

* `ApiQuery.run_eq` — a request that can be made is answered by the body of its handler.
* `Place` — a location as the app names it; `Place.location` is what LibVMI is given.
* `writeNum_run` / `readNum_run` — the two halves, for every width and address form.
* `roundTrips_iff` — **what is written is read back** as far as the request's field reaches:
  up to `2 ^ 31` for the widths of up to 32 bits, up to `2 ^ 63` for the widest.
-/

variable {G : Type}

/-! ### Running a query -/

/-- Given its request, a handler is its body. -/
theorem core_ok (h : Handler G) (env : Env G) (m : Msg) (w : World G) :
    h.core env (.ok m) w = h.body env (.ok m) w := by
  unfold Handler.core
  cases h.linked <;> rfl

/-- The world in which the request of a frontend is handled. -/
def FE.asking (fe : FE) (w : World G) : World G := { w with scratchIdent := fe.identR }

@[simp] theorem asking_guest (fe : FE) (w : World G) : (fe.asking w).guest = w.guest := rfl

/-- A request that can be made is answered by the body of its handler. -/
theorem ApiQuery.run_eq {env : Env G} {fe : FE} {w w' : World G} {a : ApiQuery} {q : Query}
    {m : Msg} {r : Reply} {res : Except PyError Value} (hq : a.query = q)
    (hreq : q.request = .ok (VMIMessage.empty.addCall q.call m))
    (hbody : (handlerOf q.call).body env (.ok m) (fe.asking w) = .ok (w', r))
    (hread : q.read (record VMIMessage.empty q.call.replyNum r 0) = res) :
    a.run env fe w = .ok ⟨w', res⟩ := by
  subst hq hread
  have hasks := ApiQuery.asks hreq
  unfold ApiQuery.run
  rw [hreq]
  dsimp only
  unfold FE.sendDefaultReply
  rw [processProtobuf_of_type hasks.type, Handler.run_unlinked _ _ _ _ _ _ _ _ hasks.unlinked,
    request_addCall, core_ok]
  show ((((handlerOf a.query.call).body env (.ok m) (fe.asking w)).map _).map _ >>= _) = _
  rw [hbody]
  rfl

/-- A request that cannot be made is not sent. -/
theorem ApiQuery.run_refused {env : Env G} {fe : FE} {w : World G} {a : ApiQuery} {e : PyError}
    (hreq : a.query.request = .error e) : a.run env fe w = .ok ⟨w, .error e⟩ := by
  unfold ApiQuery.run
  rw [hreq]

/-- The only entry of a repeated reply. -/
theorem firstReply_record {c : Call} (hrep : isRepeated c.replyNum = true) (m : Msg) :
    firstReply c (record VMIMessage.empty c.replyNum (.ok m) 0) = .ok m := by
  have hsub : (record VMIMessage.empty c.replyNum (.ok m) 0).sub c.replyNum = [m] := by
    show (VMIMessage.empty.put c.replyNum m).sub c.replyNum = [m]
    simp [VMIMessage.putList, hrep]
  unfold firstReply
  rw [if_pos hrep, hsub]
  rfl

theorem statusResult_resultWith {c : Call} {t : FieldType} (hc : c.replyFields = resultStatus t)
    (v : Val) (st : Status) : statusResult c (resultWith v st) = .ok (st.code.toInt, v) := by
  unfold statusResult getField
  rw [hc]
  rfl

/-- `int(result)` of the only entry. -/
theorem intResult_record {c : Call} {t : FieldType} {v : Val} {st : Status} {n : ℤ}
    (hrep : isRepeated c.replyNum = true) (hc : c.replyFields = resultStatus t)
    (hv : intOf v = .ok n) :
    intResult c (record VMIMessage.empty c.replyNum (.ok (resultWith v st)) 0) = .ok (.int n) := by
  unfold intResult mgetStatusResult
  rw [firstReply_record hrep, ok_bind, statusResult_resultWith hc, ok_bind]
  dsimp only
  rw [hv]
  rfl

/-! ### Requests, field by field -/

/-- An assignment to a declared field is decided by the check of its type. -/
theorem setField_eq {fields : Descriptor} {f : FieldName} {op : Operand} {x : Arg}
    {fd : FieldDescriptor} (m : Msg) (hop : op.eval = .ok x)
    (hfd : fields.find? (fun fd => fd.name = f) = some fd) :
    setField fields m (f, op) = (checkValue fd.type x).map (m.set f) := by
  unfold setField
  rw [hop, ok_bind]
  dsimp only
  rw [hfd]
  dsimp only
  cases checkValue fd.type x <;> rfl

/-- One assignment, then the others. -/
theorem setFields_cons {fields : Descriptor} {args : List (FieldName × Operand)} {m : Msg}
    {res : Except PyError Msg} {f : FieldName} {op : Operand} {x : Arg} {fd : FieldDescriptor}
    {v : Val} (hop : op.eval = .ok x) (hfd : fields.find? (fun fd => fd.name = f) = some fd)
    (hv : checkValue fd.type x = .ok v)
    (hrest : args.foldlM (setField fields) (m.set f v) = res) :
    ((f, op) :: args).foldlM (setField fields) m = res := by
  rw [List.foldlM_cons, setField_eq m hop hfd, hv]
  exact hrest

/-- An assignment that raises ends the request. -/
theorem setFields_cons_error {fields : Descriptor} {args : List (FieldName × Operand)} {m : Msg}
    {f : FieldName} {op : Operand} {x : Arg} {fd : FieldDescriptor} {e : PyError}
    (hop : op.eval = .ok x) (hfd : fields.find? (fun fd => fd.name = f) = some fd)
    (hv : checkValue fd.type x = .error e) :
    ((f, op) :: args).foldlM (setField fields) m = .error e := by
  rw [List.foldlM_cons, setField_eq m hop hfd, hv]
  rfl

theorem vmmsgHelper_ok {c : Call} {args : List (FieldName × Operand)} {m : Msg}
    (hrep : isRepeated c.num = true)
    (hset : args.foldlM (setField c.requestFields) Msg.empty = .ok m) :
    vmmsgHelper c args = .ok (VMIMessage.empty.addCall c m) := by
  unfold vmmsgHelper
  rw [if_pos hrep, hset]
  rfl

theorem vmmsgHelper_error {c : Call} {args : List (FieldName × Operand)} {e : PyError}
    (hrep : isRepeated c.num = true)
    (hset : args.foldlM (setField c.requestFields) Msg.empty = .error e) :
    vmmsgHelper c args = .error e := by
  unfold vmmsgHelper
  rw [if_pos hrep, hset]
  rfl

theorem ranged_eq_ok {lo hi n : ℤ} (h : lo ≤ n ∧ n < hi) (v : Val) : ranged lo hi n v = .ok v :=
  if_pos h

theorem ranged_eq_error {lo hi n : ℤ} (h : hi ≤ n) (v : Val) :
    ranged lo hi n v = .error .valueError :=
  if_neg fun hn => absurd hn.2 (not_lt.mpr h)

theorem checkValue_u64 (a : UInt64) : checkValue .uint64 (.int a.toNat) = .ok (.u64 a) := by
  have hlt := a.toNat_lt
  show ranged 0 (2 ^ 64) a.toNat (.u64 (.ofNat (a.toNat : ℤ).toNat)) = _
  rw [ranged_eq_ok (by omega), Int.toNat_natCast, UInt64.ofNat_toNat]

theorem checkValue_i32 (v : Int32) : checkValue .int32 (.int v.toInt) = .ok (.i32 v) := by
  have hlt := v.toInt_lt
  have hle := v.le_toInt
  show ranged (-2 ^ 31) (2 ^ 31) v.toInt (.i32 (.ofInt v.toInt)) = _
  rw [ranged_eq_ok ⟨hle, hlt⟩, Int32.ofInt_toInt]

/-! ### Locations -/

/-- A location of the guest, as the app names it. -/
inductive Place
  | pa (paddr : UInt64)
  | va (vaddr : UInt64) (pid : Int32)
  | ksym (symbol : Str)

def Place.space : Place → Space
  | .pa _ => .pa
  | .va _ _ => .va
  | .ksym _ => .ksym

/-- Where LibVMI goes: a symbol ends at its first NUL. -/
def Place.location : Place → Location
  | .pa paddr => .pa paddr
  | .va vaddr pid => .va vaddr pid
  | .ksym symbol => .ksym (cStr (Utf8.encode symbol))

/-- The request fields that name a place. -/
def Place.NamedIn (p : Place) (m : Msg) : Prop :=
  match p with
  | .pa paddr => m.val .paddr = some (.u64 paddr)
  | .va vaddr pid => m.val .vaddr = some (.u64 vaddr) ∧ m.val .pid = some (.i32 pid)
  | .ksym symbol => m.val .symbol = some (.str (Utf8.encode symbol))

theorem Place.location_eq {p : Place} {m : Msg} (h : p.NamedIn m) :
    Vmi.location p.space m = some p.location := by
  cases p with
  | pa paddr =>
    have hpaddr : m.val .paddr = some (.u64 paddr) := h
    simp [Place.space, Vmi.location, Msg.u64?, hpaddr, Place.location]
  | va vaddr pid =>
    obtain ⟨hvaddr, hpid⟩ := h
    simp [Place.space, Vmi.location, Msg.u64?, Msg.i32?, hvaddr, hpid, Place.location]
  | ksym symbol =>
    have hsymbol : m.val .symbol = some (.str (Utf8.encode symbol)) := h
    simp [Place.space, Vmi.location, Msg.str?, hsymbol, Place.location]

/-! ### Values -/

/-- The number of bits of a width. -/
def widthBits : Width → ℕ
  | .w8 => 8
  | .w16 => 16
  | .w32 => 32
  | .w64 => 64

/-- The first number that does not fit the `value` field of a write. -/
def valueBound : Width → ℕ
  | .w64 => 2 ^ 63
  | _ => 2 ^ 31

/-- A number in the `value` field of a write. -/
def valueField (W : Width) (v : ℕ) : Val :=
  match W with
  | .w64 => .i64 (.ofInt v)
  | _ => .i32 (.ofInt v)

/-- The `value` field takes the numbers below its bound. -/
theorem checkValue_value {W : Width} {v : ℕ} (hv : v < valueBound W) :
    checkValue W.valueType (.int v) = .ok (valueField W v) := by
  cases W with
  | w64 =>
    have hv : v < 2 ^ 63 := hv
    exact ranged_eq_ok (by omega) _
  | w8 | w16 | w32 =>
    have hv : v < 2 ^ 31 := hv
    exact ranged_eq_ok (by omega) _

/-- It raises on the others. -/
theorem checkValue_of_bound_le {W : Width} {v : ℕ} (hv : valueBound W ≤ v) :
    checkValue W.valueType (.int v) = .error .valueError := by
  cases W with
  | w64 =>
    have hv : 2 ^ 63 ≤ v := hv
    exact ranged_eq_error (by omega) _
  | w8 | w16 | w32 =>
    have hv : 2 ^ 31 ≤ v := hv
    exact ranged_eq_error (by omega) _

/-- The handler gets back the number that went into the request. -/
theorem widthValue?_valueField {W : Width} {v : ℕ} {m : Msg} (hv : v < 2 ^ widthBits W)
    (hm : m.val .value = some (valueField W v)) : widthValue? W m = some (.ofNat v) := by
  have hcast : (Int32.ofInt v).toUInt32 = UInt32.ofNat v := rfl
  cases W with
  | w8 =>
    have hlt : v < 2 ^ 8 := hv
    have hmod : v % 2 ^ 8 = v % 2 ^ 64 := by omega
    simpa [widthValue?, Msg.i32?, hm, valueField, hcast, ← UInt64.toNat_inj] using hmod
  | w16 =>
    have hlt : v < 2 ^ 16 := hv
    have hmod : v % 2 ^ 16 = v % 2 ^ 64 := by omega
    simpa [widthValue?, Msg.i32?, hm, valueField, hcast, ← UInt64.toNat_inj] using hmod
  | w32 =>
    have hlt : v < 2 ^ 32 := hv
    have hmod : v % 2 ^ 32 = v % 2 ^ 64 := by omega
    simpa [widthValue?, Msg.i32?, hm, valueField, hcast, ← UInt64.toNat_inj] using hmod
  | w64 =>
    have hcast : (Int64.ofInt v).toUInt64 = UInt64.ofNat v := rfl
    simp [widthValue?, Msg.i64?, hm, valueField, hcast]

/-- The app gets back the number that LibVMI read. -/
theorem intOf_widthResult {W : Width} {v : UInt64} (hv : v.toNat < 2 ^ widthBits W) :
    intOf (widthResult W v) = .ok v.toNat := by
  cases W with
  | w8 =>
    have hlt : v.toNat < 2 ^ 8 := hv
    have hmod : v.toNat % 2 ^ 8 = v.toNat := by omega
    simpa [intOf, widthResult] using mod_cast hmod
  | w16 =>
    have hlt : v.toNat < 2 ^ 16 := hv
    have hmod : v.toNat % 2 ^ 16 = v.toNat := by omega
    simpa [intOf, widthResult] using mod_cast hmod
  | w32 =>
    have hlt : v.toNat < 2 ^ 32 := hv
    have hmod : v.toNat % 2 ^ 32 = v.toNat := by omega
    simpa [intOf, widthResult] using mod_cast hmod
  | w64 => rfl

/-! ### The functions -/

/-- `write_8_pa` to `write_64_ksym`. -/
def writeNum (W : Width) (p : Place) (v : ℕ) : ApiQuery :=
  match W, p with
  | .w8, .pa paddr => .write8Pa (.ok paddr.toNat) (.ok v)
  | .w16, .pa paddr => .write16Pa (.ok paddr.toNat) (.ok v)
  | .w32, .pa paddr => .write32Pa (.ok paddr.toNat) (.ok v)
  | .w64, .pa paddr => .write64Pa (.ok paddr.toNat) (.ok v)
  | .w8, .va vaddr pid => .write8Va (.ok vaddr.toNat) (.ok pid.toInt) (.ok v)
  | .w16, .va vaddr pid => .write16Va (.ok vaddr.toNat) (.ok pid.toInt) (.ok v)
  | .w32, .va vaddr pid => .write32Va (.ok vaddr.toNat) (.ok pid.toInt) (.ok v)
  | .w64, .va vaddr pid => .write64Va (.ok vaddr.toNat) (.ok pid.toInt) (.ok v)
  | .w8, .ksym symbol => .write8Ksym (.text symbol) (.ok v)
  | .w16, .ksym symbol => .write16Ksym (.text symbol) (.ok v)
  | .w32, .ksym symbol => .write32Ksym (.text symbol) (.ok v)
  | .w64, .ksym symbol => .write64Ksym (.text symbol) (.ok v)

/-- `read_8_pa` to `read_64_ksym`. -/
def readNum (W : Width) (p : Place) : ApiQuery :=
  match W, p with
  | .w8, .pa paddr => .read8Pa (.ok paddr.toNat)
  | .w16, .pa paddr => .read16Pa (.ok paddr.toNat)
  | .w32, .pa paddr => .read32Pa (.ok paddr.toNat)
  | .w64, .pa paddr => .read64Pa (.ok paddr.toNat)
  | .w8, .va vaddr pid => .read8Va (.ok vaddr.toNat) (.ok pid.toInt)
  | .w16, .va vaddr pid => .read16Va (.ok vaddr.toNat) (.ok pid.toInt)
  | .w32, .va vaddr pid => .read32Va (.ok vaddr.toNat) (.ok pid.toInt)
  | .w64, .va vaddr pid => .read64Va (.ok vaddr.toNat) (.ok pid.toInt)
  | .w8, .ksym symbol => .read8Ksym (.text symbol)
  | .w16, .ksym symbol => .read16Ksym (.text symbol)
  | .w32, .ksym symbol => .read32Ksym (.text symbol)
  | .w64, .ksym symbol => .read64Ksym (.text symbol)

/-- The assignments that name a place. -/
def Place.args : Place → List (FieldName × Operand)
  | .pa paddr => atPa (.ok paddr.toNat)
  | .va vaddr pid => atVa (.ok vaddr.toNat) (.ok pid.toInt)
  | .ksym symbol => atKsym (.text symbol)

theorem readNum_query (W : Width) (p : Place) :
    (readNum W p).query = intQuery (.readNum W p.space) p.args := by
  cases p <;> cases W <;> rfl

/-- The assignments of a write: `write_32_va` makes that of the value before that of the
    process. -/
def writeArgs (W : Width) (p : Place) (v : ℕ) : List (FieldName × Operand) :=
  match p, W with
  | .va vaddr pid, .w32 =>
    [(.vaddr, .int (.ok vaddr.toNat)), (.value, .int (.ok v)), (.pid, .int (.ok pid.toInt))]
  | p, _ => p.args ++ [(.value, .int (.ok v))]

theorem writeNum_query (W : Width) (p : Place) (v : ℕ) :
    (writeNum W p v).query = statusQuery (.writeNum W p.space) (writeArgs W p v) := by
  cases p <;> cases W <;> rfl

/-- A request of nothing but a place. -/
theorem Place.assign (p : Place) :
    ∃ m, p.args.foldlM (setField p.space.readFields) Msg.empty = .ok m ∧ p.NamedIn m := by
  cases p with
  | pa paddr =>
    refine ⟨Msg.empty.set .paddr (.u64 paddr), ?_, rfl⟩
    exact setFields_cons rfl rfl (checkValue_u64 paddr) rfl
  | va vaddr pid =>
    refine ⟨(Msg.empty.set .vaddr (.u64 vaddr)).set .pid (.i32 pid), ?_, rfl, rfl⟩
    have hpid := checkValue_i32 pid
    exact setFields_cons rfl rfl (checkValue_u64 vaddr) (setFields_cons rfl rfl hpid rfl)
  | ksym symbol =>
    refine ⟨Msg.empty.set .symbol (.str (Utf8.encode symbol)), ?_, rfl⟩
    exact setFields_cons (x := .text symbol) rfl rfl rfl rfl

/-- The request of a read. -/
theorem readNum_request (W : Width) (p : Place) :
    ∃ m, (readNum W p).query.request = .ok (VMIMessage.empty.addCall (.readNum W p.space) m) ∧
      p.NamedIn m := by
  obtain ⟨m, hset, hm⟩ := p.assign
  refine ⟨m, ?_, hm⟩
  rw [readNum_query]
  refine vmmsgHelper_ok ?_ hset
  cases p <;> cases W <;> rfl

theorem isRepeated_num_writeNum (W : Width) (p : Place) :
    isRepeated (Call.writeNum W p.space).num = true := by
  cases p <;> cases W <;> rfl

/-- The request of a write, when its value fits. -/
theorem writeNum_request {W : Width} {v : ℕ} (hv : v < valueBound W) (p : Place) :
    ∃ m, (writeNum W p v).query.request = .ok (VMIMessage.empty.addCall (.writeNum W p.space) m) ∧
      p.NamedIn m ∧ m.val .value = some (valueField W v) := by
  have hvalue := checkValue_value hv
  suffices ∃ m, (writeArgs W p v).foldlM (setField (Call.writeNum W p.space).requestFields)
      Msg.empty = .ok m ∧ p.NamedIn m ∧ m.val .value = some (valueField W v) by
    obtain ⟨m, hset, hm⟩ := this
    refine ⟨m, ?_, hm⟩
    rw [writeNum_query]
    exact vmmsgHelper_ok (isRepeated_num_writeNum W p) hset
  cases p with
  | pa paddr =>
    refine ⟨(Msg.empty.set .paddr (.u64 paddr)).set .value (valueField W v), ?_, rfl, rfl⟩
    have hpaddr := checkValue_u64 paddr
    exact setFields_cons rfl rfl hpaddr (setFields_cons rfl rfl hvalue rfl)
  | va vaddr pid =>
    have hvaddr := checkValue_u64 vaddr
    have hpid := checkValue_i32 pid
    cases W with
    | w32 =>
      -- the value goes before the process
      refine ⟨((Msg.empty.set .vaddr (.u64 vaddr)).set .value (valueField .w32 v)).set .pid
        (.i32 pid), ?_, ⟨rfl, rfl⟩, rfl⟩
      refine setFields_cons rfl rfl hvaddr ?_
      exact setFields_cons rfl rfl hvalue (setFields_cons rfl rfl hpid rfl)
    | w8 | w16 | w64 =>
      refine ⟨((Msg.empty.set .vaddr (.u64 vaddr)).set .pid (.i32 pid)).set .value
        (valueField _ v), ?_, ⟨rfl, rfl⟩, rfl⟩
      refine setFields_cons rfl rfl hvaddr ?_
      exact setFields_cons rfl rfl hpid (setFields_cons rfl rfl hvalue rfl)
  | ksym symbol =>
    refine ⟨(Msg.empty.set .symbol (.str (Utf8.encode symbol))).set .value (valueField W v), ?_,
      rfl, rfl⟩
    refine setFields_cons (x := .text symbol) rfl rfl rfl ?_
    exact setFields_cons rfl rfl hvalue rfl

/-- The request of a write whose value does not fit is never made. -/
theorem writeNum_refused {W : Width} {v : ℕ} (hv : valueBound W ≤ v) (p : Place) :
    (writeNum W p v).query.request = .error .valueError := by
  have hvalue := checkValue_of_bound_le hv
  rw [writeNum_query]
  apply vmmsgHelper_error (isRepeated_num_writeNum W p)
  cases p with
  | pa paddr =>
    have hpaddr := checkValue_u64 paddr
    exact setFields_cons rfl rfl hpaddr (setFields_cons_error rfl rfl hvalue)
  | va vaddr pid =>
    have hvaddr := checkValue_u64 vaddr
    have hpid := checkValue_i32 pid
    cases W with
    | w32 => exact setFields_cons rfl rfl hvaddr (setFields_cons_error rfl rfl hvalue)
    | w8 | w16 | w64 =>
      refine setFields_cons rfl rfl hvaddr ?_
      exact setFields_cons rfl rfl hpid (setFields_cons_error rfl rfl hvalue)
  | ksym symbol =>
    exact setFields_cons (x := .text symbol) rfl rfl rfl (setFields_cons_error rfl rfl hvalue)

/-! ### The two halves -/

/-- The world after one operation. -/
def performed (w : World G) (op : ExtOp) (g : G) : World G :=
  { w with guest := g, ops := w.ops ++ [op] }

@[simp] theorem performed_guest (w : World G) (op : ExtOp) (g : G) : (performed w op g).guest = g :=
  rfl

theorem exec_eq {env : Env G} {w : World G} {op : ExtOp} {res : op.Res} {g : G}
    (h : env.exec op w.guest = (res, g)) : w.exec env op = (res, performed w op g) := by
  unfold World.exec
  rw [h]
  rfl

theorem writeNumBody_run {env : Env G} {w : World G} {W : Width} {s : Space} {m : Msg}
    {l : Location} {v : UInt64} {st : Status} {g : G} (hl : location s m = some l)
    (hv : widthValue? W m = some v) (hexec : env.exec (.writeNum W l v) w.guest = (st, g)) :
    writeNumBody W s env (.ok m) w =
      .ok (performed w (.writeNum W l v) g, .ok (statusOnly st)) := by
  unfold writeNumBody reading
  rw [ok_bind]
  dsimp only
  rw [hl, hv]
  dsimp only
  rw [exec_eq hexec]

theorem readNumBody_run {env : Env G} {w : World G} {W : Width} {s : Space} {m : Msg} {l : Location}
    {v : UInt64} {st : Status} {g : G} (hl : location s m = some l)
    (hexec : env.exec (.readNum W l) w.guest = ((st, some v), g)) :
    readNumBody W s env (.ok m) w =
      .ok (performed w (.readNum W l) g, .ok (resultWith (widthResult W v) st)) := by
  unfold readNumBody reading
  rw [ok_bind]
  dsimp only
  rw [hl]
  dsimp only
  rw [exec_eq hexec]
  rfl

theorem readAddrBody_run {env : Env G} {w : World G} {s : Space} {m : Msg} {l : Location}
    {v : UInt64} {st : Status} {g : G} (hl : location s m = some l)
    (hexec : env.exec (.readAddr l) w.guest = ((st, some v), g)) :
    readAddrBody s env (.ok m) w =
      .ok (performed w (.readAddr l) g, .ok (resultWith (.u64 v) st)) := by
  unfold readAddrBody reading
  rw [ok_bind]
  dsimp only
  rw [hl]
  dsimp only
  rw [exec_eq hexec]
  rfl

theorem handlerOf_writeNum (W : Width) (s : Space) :
    (handlerOf (.writeNum W s) : Handler G).body = writeNumBody W s := by
  cases s <;> cases W <;> rfl

theorem handlerOf_readNum (W : Width) (s : Space) :
    (handlerOf (.readNum W s) : Handler G).body = readNumBody W s := by
  cases s <;> cases W <;> rfl

/-- **A write** whose value fits its width and the request. -/
theorem writeNum_run {env : Env G} {fe : FE} {w : World G} {W : Width} {p : Place} {v : ℕ}
    {st : Status} {g : G} (hv : v < valueBound W) (hbits : v < 2 ^ widthBits W)
    (hexec : env.exec (.writeNum W p.location (.ofNat v)) w.guest = (st, g)) :
    (writeNum W p v).run env fe w =
      .ok ⟨performed (fe.asking w) (.writeNum W p.location (.ofNat v)) g,
        .ok (.status st.code)⟩ := by
  obtain ⟨m, hreq, hplace, hvalue⟩ := writeNum_request hv p
  rw [writeNum_query] at hreq
  have hbody := writeNumBody_run (w := fe.asking w) (Place.location_eq hplace)
    (widthValue?_valueField hbits hvalue) hexec
  rw [← handlerOf_writeNum] at hbody
  apply ApiQuery.run_eq (writeNum_query W p v) hreq hbody
  cases p <;> cases W <;> rfl

/-- **A read** of a number that fits its width. -/
theorem readNum_run {env : Env G} {fe : FE} {w : World G} {W : Width} {p : Place} {v : UInt64}
    {g : G} (hbits : v.toNat < 2 ^ widthBits W)
    (hexec : env.exec (.readNum W p.location) w.guest = ((.success, some v), g)) :
    (readNum W p).run env fe w =
      .ok ⟨performed (fe.asking w) (.readNum W p.location) g, .ok (.int v.toNat)⟩ := by
  obtain ⟨m, hreq, hplace⟩ := readNum_request W p
  rw [readNum_query] at hreq
  have hbody := readNumBody_run (w := fe.asking w) (Place.location_eq hplace) hexec
  rw [← handlerOf_readNum] at hbody
  apply ApiQuery.run_eq (readNum_query W p) hreq hbody
  have hrep : isRepeated (Call.readNum W p.space).replyNum = true := by
    cases p <;> cases W <;> rfl
  exact intResult_record hrep rfl (intOf_widthResult hbits)

theorem readAddrVa_run {env : Env G} {fe : FE} {w : World G} {vaddr : UInt64} {pid : Int32}
    {v : UInt64} {g : G}
    (hread : env.exec (.readAddr (.va vaddr pid)) w.guest = ((.success, some v), g)) :
    (ApiQuery.readAddrVa (.ok vaddr.toNat) (.ok pid.toInt)).run env fe w =
      .ok ⟨performed (fe.asking w) (.readAddr (.va vaddr pid)) g, .ok (.int v.toNat)⟩ := by
  obtain ⟨m, hset, hm⟩ := (Place.va vaddr pid).assign
  have hreq : vmmsgHelper (.readAddr .va) (Place.va vaddr pid).args =
      .ok (VMIMessage.empty.addCall (.readAddr .va) m) := vmmsgHelper_ok rfl hset
  have hbody := readAddrBody_run (w := fe.asking w) (Place.location_eq hm) hread
  exact ApiQuery.run_eq rfl hreq hbody (intResult_record rfl rfl rfl)

/-! ### A guest with a memory

Concrete accesses are made in a guest whose memory, from the location on, is a list of bytes. -/

def littleEndian : Bytes → ℕ
  | [] => 0
  | b :: bs => b.toNat + 256 * littleEndian bs

def bytesOf : ℕ → ℕ → Bytes
  | 0, _ => []
  | n + 1, v => UInt8.ofNat v :: bytesOf n (v / 256)

def memoryEnv : Env Bytes where
  exec op g := match op with
    | .readNum W _ => ((.success, some (.ofNat (littleEndian (g.take (widthBits W / 8))))), g)
    | .writeNum W _ v => (.success, bytesOf (widthBits W / 8) v.toNat ++ g.drop (widthBits W / 8))
    | .readBuf _ n => ((.success, ⟨g.take n, []⟩), g)
    | .readStr _ => (some (cStr g), g)
    | .writeBuf _ n b => ((.success, some (.ofNat n)), b.take n ++ g.drop n)
    | op => ((echoEnv.exec op ()).1, g)
  fuel := 1

/-! ### Round trips -/

/-- LibVMI keeps a number at a location: it writes it, and reads it back. -/
def Keeps (env : Env G) (W : Width) (l : Location) (v : ℕ) (g : G) : Prop :=
  ∃ g₁ g₂, env.exec (.writeNum W l (.ofNat v)) g = (.success, g₁) ∧
    env.exec (.readNum W l) g₁ = ((.success, some (.ofNat v)), g₂)

/-- The write completes with `VMI_SUCCESS`, and the read that follows returns what was written. -/
def RoundTrips (env : Env G) (fe : FE) (w : World G) (W : Width) (p : Place) (v : ℕ) : Prop :=
  ∃ w₁ w₂, (writeNum W p v).run env fe w = .ok ⟨w₁, .ok (.status 0)⟩ ∧
    (readNum W p).run env fe w₁ = .ok ⟨w₂, .ok (.int v)⟩

/-- **What is written is read back** exactly as far as the request's field reaches. -/
theorem roundTrips_iff {env : Env G} {fe : FE} {w : World G} {W : Width} {p : Place} {v : ℕ}
    (hkeeps : Keeps env W p.location v w.guest) (hbits : v < 2 ^ widthBits W) :
    RoundTrips env fe w W p v ↔ v < valueBound W := by
  constructor
  · rintro ⟨w₁, w₂, hwrite, -⟩
    by_contra hv
    rw [ApiQuery.run_refused (writeNum_refused (not_lt.mp hv) p)] at hwrite
    cases hwrite
  · intro hv
    obtain ⟨g₁, g₂, hwrite, hread⟩ := hkeeps
    have hword : v < 2 ^ 64 := lt_of_lt_of_le hbits (by cases W <;> decide)
    have htoNat : (UInt64.ofNat v).toNat = v := UInt64.toNat_ofNat_of_lt' hword
    have hbits' : (UInt64.ofNat v).toNat < 2 ^ widthBits W := by rw [htoNat]; exact hbits
    let w₁ := performed (fe.asking w) (.writeNum W p.location (.ofNat v)) g₁
    have hrun : (readNum W p).run env fe w₁ = _ := readNum_run hbits' hread
    rw [htoNat] at hrun
    exact ⟨w₁, _, writeNum_run hv hbits hwrite, hrun⟩

/-- The highest bit of a word of 32 bits does not fit the `int32` of the request. -/
theorem roundTrips_fails :
    Keeps memoryEnv .w32 (.pa 4096) (2 ^ 31) (List.replicate 8 0) ∧
    (writeNum .w32 (.pa 4096) (2 ^ 31)).run memoryEnv ⟨[1], ∅, ∅, 0, false⟩
        (World.initial (List.replicate 8 0)) =
      .ok ⟨World.initial (List.replicate 8 0), .error .valueError⟩ ∧
    ¬RoundTrips memoryEnv ⟨[1], ∅, ∅, 0, false⟩ (World.initial (List.replicate 8 0)) .w32
      (.pa 4096) (2 ^ 31) := by
  have hrun : (writeNum .w32 (.pa 4096) (2 ^ 31)).run memoryEnv ⟨[1], ∅, ∅, 0, false⟩
        (World.initial (List.replicate 8 0)) =
      .ok ⟨World.initial (List.replicate 8 0), .error .valueError⟩ :=
    ApiQuery.run_refused (writeNum_refused (by decide) _)
  refine ⟨⟨_, _, rfl, rfl⟩, hrun, ?_⟩
  rintro ⟨w₁, w₂, hwrite, -⟩
  rw [hrun] at hwrite
  cases hwrite

/-- The number below it is read back from a kernel address. -/
theorem roundTrips_iff_int32Max :
    RoundTrips memoryEnv ⟨[1], ∅, ∅, 0, false⟩ (World.initial (List.replicate 8 0)) .w32
      (.va 0xffff880000000000 0) (2 ^ 31 - 1) :=
  (roundTrips_iff ⟨_, _, rfl, rfl⟩ (by decide)).mpr (by decide)

end Furnace.App
