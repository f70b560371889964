import Furnace.App.Frontend
import Furnace.Lib.Utf8
import Mathlib.Algebra.Ring.Int.Defs

namespace Furnace.App

open Furnace.Proto Furnace.Lib Furnace.Vmi
open Furnace.Lib.PyText (Str)

/-!
# The queries of the frontend

The API calls that ask the VMI partition for something, or tell it to do something, and
register nothing.  Each of them prepares one request, sends it with `send_default_reply`, and
takes its result from the reply: from the first entry of a repeated field, or from the only
sub-message of a singular one, where what is not set reads as protobuf's default.

* `Query` — what the functions differ in: the call type, the helper that prepares the request,
  the assignments to its fields, and how the reply is read.
* `ApiQuery.query` — the functions themselves.
* `query_run` — **a query is its handler**: a request that goes out is answered by the handler
  of its call type, without a link.
-/

variable {G : Type}

/-! ### Assignments -/

/-- What is assigned to a field. -/
inductive Arg
  | int (n : ℤ) | text (s : Str) | bytes (b : Bytes) | other
  deriving DecidableEq

/-- What `int(x)` returns or raises for an argument of the app's. -/
abbrev PyInt := Except PyError ℤ

/-- The right side of an assignment: an argument `x` of the app's as `int(x)`, as it is, as
    `x.encode()` or as the length of one of these two; or the placeholder. -/
inductive Operand
  | int (x : PyInt) | given (x : Arg) | encoded (x : Arg) | encodedLength (x : Arg)
  | length (x : Arg) | one

/-- `x.encode()`: only a text has it. -/
def Arg.encode : Arg → Except PyError Bytes
  | .text s => .ok (Utf8.encode s)
  | _ => .error .attributeError

/-- `len(x)`. -/
def Arg.length : Arg → Except PyError ℤ
  | .text s => .ok s.length
  | .bytes b => .ok b.length
  | _ => .error .typeError

def Operand.eval : Operand → Except PyError Arg
  | .int x => x.map .int
  | .given x => .ok x
  | .encoded x => x.encode.map .bytes
  | .encodedLength x => x.encode.map fun b => .int b.length
  | .length x => x.length.map .int
  | .one => .ok (.int 1)

/-- An integer within the bounds of its field. -/
def ranged (lo hi n : ℤ) (v : Val) : Except PyError Val :=
  if lo ≤ n ∧ n < hi then .ok v else .error .valueError

/-- The check that protobuf makes of a value, by the type of its field.  No query has a field
    of an `enum` type. -/
def checkValue : FieldType → Arg → Except PyError Val
  | .uint64, .int n => ranged 0 (2 ^ 64) n (.u64 (.ofNat n.toNat))
  | .int64, .int n => ranged (-2 ^ 63) (2 ^ 63) n (.i64 (.ofInt n))
  | .uint32, .int n => ranged 0 (2 ^ 32) n (.u32 (.ofNat n.toNat))
  | .int32, .int n => ranged (-2 ^ 31) (2 ^ 31) n (.i32 (.ofInt n))
  | .string, .text s => .ok (.str (Utf8.encode s))
  -- bytes are taken for a text when they are one
  | .string, .bytes b => if (Utf8.decode b).isSome then .ok (.str b) else .error .valueError
  | .bytes, .bytes b => .ok (.bytes b)
  | _, _ => .error .typeError

/-- `submsg.f = x`: the field must be declared. -/
def setField (fields : Descriptor) (submsg : Msg) (arg : FieldName × Operand) :
    Except PyError Msg := do
  let x ← arg.2.eval
  match fields.find? (fun fd => fd.name = arg.1) with
  | none => .error .attributeError
  | some fd => do
    let v ← checkValue fd.type x
    .ok (submsg.set arg.1 v)

/-! ### Requests -/

/-- `vmmsg_helper`, then the assignments: only a repeated field has a method `add`. -/
def vmmsgHelper (c : Call) (args : List (FieldName × Operand)) : Except PyError VMIMessage :=
  if isRepeated c.num then do
    let submsg ← args.foldlM (setField c.requestFields) Msg.empty
    .ok (VMIMessage.empty.addCall c submsg)
  else .error .attributeError

/-- `vmsg_helper`, then the assignments: a repeated field has no attributes to assign to. -/
def vmsgHelper (c : Call) (args : List (FieldName × Operand)) : Except PyError VMIMessage :=
  if isRepeated c.num then
    match args with
    -- the type goes out without a request
    | [] => .ok (VMIMessage.empty.addType c.num)
    | _ :: _ => .error .attributeError
  else do
    let submsg ← args.foldlM (setField c.requestFields) Msg.empty
    .ok (VMIMessage.empty.addCall c submsg)

/-- `send_default_reply`. -/
def FE.sendDefaultReply (fe : FE) (env : Env G) (vmsg : VMIMessage) (w : World G) :
    Except Fault (World G × VMIMessage) :=
  processProtobuf env vmsg { w with scratchIdent := fe.identR }

/-! ### Replies -/

/-- What a query returns. -/
inductive Value
  | int (n : ℤ) | status (st : Int32) | field (v : Val)
  | pslist (d : List (Int32 × Bytes × UInt64)) | nothing
  deriving DecidableEq

/-- `vmsg.x_ret[0]`: only a repeated field has entries. -/
def firstReply (c : Call) (reply : VMIMessage) : Except PyError Msg :=
  if isRepeated c.replyNum then
    match (reply.sub c.replyNum)[0]? with
    | some m => .ok m
    | none => .error .indexError
  else .error .typeError

/-- `vmsg.x_ret`, of which attributes are read: a repeated field has none. -/
def onlyReply (c : Call) (reply : VMIMessage) : Except PyError Msg :=
  if isRepeated c.replyNum then .error .attributeError
  else .ok ((reply.sub c.replyNum).headD Msg.empty)

/-- `submsg.f`. -/
def getField (c : Call) (submsg : Msg) (f : FieldName) : Except PyError Val :=
  match c.replyFields.find? (fun fd => fd.name = f) with
  | some fd => .ok (submsg.get fd)
  | none => .error .attributeError

/-- `int(v)` of a field; a text may be a number.  No query asks for that of `bytes`. -/
def intOf : Val → Except PyError ℤ
  | .u64 v => .ok v.toNat
  | .i64 v => .ok v.toInt
  | .u32 v => .ok v.toNat
  | .i32 v => .ok v.toInt
  | .enum n => .ok n
  | .str b =>
    match (Utf8.decode b).bind PyText.toInt with
    | some n => .ok n
    | none => .error .valueError
  | .bytes _ | .link _ | .processes _ => .error .typeError

/-- The end of `mget_status_result` and `get_status_result`. -/
def statusResult (c : Call) (submsg : Msg) : Except PyError (ℤ × Val) := do
  let st ← getField c submsg .status
  let status ← intOf st
  let result ← getField c submsg .result
  .ok (status, result)

/-- `mget_status_result`, of the first entry. -/
def mgetStatusResult (c : Call) (reply : VMIMessage) : Except PyError (ℤ × Val) := do
  let submsg ← firstReply c reply
  statusResult c submsg

/-- `get_status_result`. -/
def getStatusResult (c : Call) (reply : VMIMessage) : Except PyError (ℤ × Val) := do
  let submsg ← onlyReply c reply
  statusResult c submsg

/-! The ways in which the queries read their replies.  None looks at the status, but
`process_list`. -/

/-- `return int(result)`. -/
def intResult (c : Call) (reply : VMIMessage) : Except PyError Value := do
  let (_, result) ← mgetStatusResult c reply
  let n ← intOf result
  .ok (.int n)

/-- `return result`. -/
def plainResult (c : Call) (reply : VMIMessage) : Except PyError Value := do
  let (_, result) ← mgetStatusResult c reply
  .ok (.field result)

/-- `return result`, of a singular reply. -/
def onlyResult (c : Call) (reply : VMIMessage) : Except PyError Value := do
  let (_, result) ← getStatusResult c reply
  .ok (.field result)

/-- `return status`. -/
def statusReturned (c : Call) (reply : VMIMessage) : Except PyError Value :=
  (mgetStatus c reply).map .status

/-- The status is read, and dropped. -/
def statusDropped (c : Call) (reply : VMIMessage) : Except PyError Value :=
  (mgetStatus c reply).map fun _ => .nothing

/-- `read_pa` and `read_va`. -/
def bufferResult (c : Call) (reply : VMIMessage) : Except PyError Value := do
  let submsg ← firstReply c reply
  let result ← getField c submsg .result
  let bytesRead ← getField c submsg .bytesRead
  let _ ← intOf bytesRead
  .ok (.field result)

/-- `write_pa`, `write_va` and `write_ksym`. -/
def bytesWritten (c : Call) (reply : VMIMessage) : Except PyError Value := do
  let submsg ← firstReply c reply
  let bytesWritten ← getField c submsg .bytesWritten
  let n ← intOf bytesWritten
  .ok (.int n)

/-- `process_list`: a process with the `pid` of an earlier one takes its place. -/
def pslistResult (reply : VMIMessage) : Except PyError Value := do
  let submsg ← firstReply .processList reply
  let status ← getField .processList submsg .status
  if status = .i32 0 then
    let process ← getField .processList submsg .process
    match process with
    | .processes procs =>
      .ok (.pslist (procs.foldl (fun d p => PyText.assign p.pid (p.name, p.processBlockPtr) d) []))
    | _ => .error .typeError
  else .error .exception

/-! ### Queries -/

/-- A query: what it asks for, and how it reads the answer. -/
structure Query where
  call : Call
  request : Except PyError VMIMessage
  read : VMIMessage → Except PyError Value

/-- The functions that ask with `vmmsg_helper` and return `int(result)`. -/
def intQuery (c : Call) (args : List (FieldName × Operand)) : Query :=
  ⟨c, vmmsgHelper c args, intResult c⟩

/-- The functions that ask with `vmmsg_helper` and return the status. -/
def statusQuery (c : Call) (args : List (FieldName × Operand)) : Query :=
  ⟨c, vmmsgHelper c args, statusReturned c⟩

/-- `resume_vm` and `pause_vm`. -/
def effectQuery (c : Call) : Query := ⟨c, vmmsgHelper c [(.status, .one)], statusDropped c⟩

/-- The functions that ask with `vmsg_helper` and a placeholder. -/
def getQuery (c : Call) : Query := ⟨c, vmsgHelper c [(.placeholder, .one)], onlyResult c⟩

/-- The arguments of a function on a physical address. -/
def atPa (paddr : PyInt) : List (FieldName × Operand) := [(.paddr, .int paddr)]

/-- The arguments of a function on a virtual address. -/
def atVa (vaddr pid : PyInt) : List (FieldName × Operand) :=
  [(.vaddr, .int vaddr), (.pid, .int pid)]

/-- The arguments of a function on a kernel symbol. -/
def atKsym (symbol : Arg) : List (FieldName × Operand) := [(.symbol, .given symbol)]

/-- The queries, with the arguments of the app's. -/
inductive ApiQuery
  | lookupSymbol (symbolName : Arg) | lookupStructure (structureName structureKey : Arg)
  | processList | resumeVm | pauseVm
  | translateKv2p (vaddr : PyInt) | translateUv2p (vaddr pid : PyInt)
  | translateKsym2v (symbol : Arg)
  | readPa (paddr count : PyInt) | readVa (vaddr pid count : PyInt) | readKsym (vaddr pid : PyInt)
  | read8Pa (paddr : PyInt) | read16Pa (paddr : PyInt) | read32Pa (paddr : PyInt)
  | read64Pa (paddr : PyInt) | readAddrPa (paddr : PyInt) | readStrPa (paddr : PyInt)
  | read8Va (vaddr pid : PyInt) | read16Va (vaddr pid : PyInt) | read32Va (vaddr pid : PyInt)
  | read64Va (vaddr pid : PyInt) | readStrVa (vaddr pid : PyInt) | readAddrVa (vaddr pid : PyInt)
  | read8Ksym (symbol : Arg) | read16Ksym (symbol : Arg) | read32Ksym (symbol : Arg)
  | read64Ksym (symbol : Arg) | readAddrKsym (symbol : Arg) | readStrKsym (symbol : Arg)
  | writePa (paddr : PyInt) (buf : Arg) | writeVa (vaddr pid : PyInt) (buf : Arg)
  | writeKsym (symbol buf : Arg)
  | write8Pa (paddr value : PyInt) | write16Pa (paddr value : PyInt)
  | write32Pa (paddr value : PyInt) | write64Pa (paddr value : PyInt)
  | write8Va (vaddr pid value : PyInt) | write16Va (vaddr pid value : PyInt)
  | write32Va (vaddr pid value : PyInt) | write64Va (vaddr pid value : PyInt)
  | write8Ksym (symbol : Arg) (value : PyInt) | write16Ksym (symbol : Arg) (value : PyInt)
  | write32Ksym (symbol : Arg) (value : PyInt) | write64Ksym (symbol : Arg) (value : PyInt)
  | getName | getVmid | getAccessMode | getWinver | getWinverStr
  | getVcpureg (vaddr pid : PyInt) | getMemsize | getOffset (offset : Arg)
  | getOstype | getPageMode

/-- The functions of the frontend. -/
def ApiQuery.query : ApiQuery → Query
  | .lookupSymbol symbolName => intQuery .lookupSymbol [(.symbolName, .given symbolName)]
  | .lookupStructure structureName structureKey => intQuery .lookupStructure
    [(.structureName, .given structureName), (.structureKey, .given structureKey)]
  -- the reply is repeated, and so is the request, to which nothing is added
  | .processList => ⟨.processList, vmsgHelper .processList [], pslistResult⟩
  | .resumeVm => effectQuery .resumeVm
  | .pauseVm => effectQuery .pauseVm
  | .translateKv2p vaddr => intQuery .translateKv2p [(.vaddr, .int vaddr)]
  | .translateUv2p vaddr pid => intQuery .translateUv2p (atVa vaddr pid)
  | .translateKsym2v symbol => intQuery .translateKsym2v (atKsym symbol)
  | .readPa paddr count => ⟨.readBuf .pa,
    vmmsgHelper (.readBuf .pa) [(.paddr, .int paddr), (.count, .int count)],
    bufferResult (.readBuf .pa)⟩
  | .readVa vaddr pid count => ⟨.readBuf .va,
    vmmsgHelper (.readBuf .va) [(.vaddr, .int vaddr), (.count, .int count), (.pid, .int pid)],
    bufferResult (.readBuf .va)⟩
  -- the request has no such fields
  | .readKsym vaddr pid => intQuery (.readBuf .ksym) (atVa vaddr pid)
  | .read8Pa paddr => intQuery (.readNum .w8 .pa) (atPa paddr)
  | .read16Pa paddr => intQuery (.readNum .w16 .pa) (atPa paddr)
  | .read32Pa paddr => intQuery (.readNum .w32 .pa) (atPa paddr)
  | .read64Pa paddr => intQuery (.readNum .w64 .pa) (atPa paddr)
  | .readAddrPa paddr => intQuery (.readAddr .pa) (atPa paddr)
  | .readStrPa paddr => intQuery (.readStr .pa) (atPa paddr)
  | .read8Va vaddr pid => intQuery (.readNum .w8 .va) (atVa vaddr pid)
  | .read16Va vaddr pid => intQuery (.readNum .w16 .va) (atVa vaddr pid)
  | .read32Va vaddr pid => intQuery (.readNum .w32 .va) (atVa vaddr pid)
  | .read64Va vaddr pid => intQuery (.readNum .w64 .va) (atVa vaddr pid)
  -- the only string that is returned as one
  | .readStrVa vaddr pid =>
    ⟨.readStr .va, vmmsgHelper (.readStr .va) (atVa vaddr pid), plainResult (.readStr .va)⟩
  | .readAddrVa vaddr pid => intQuery (.readAddr .va) (atVa vaddr pid)
  | .read8Ksym symbol => intQuery (.readNum .w8 .ksym) (atKsym symbol)
  | .read16Ksym symbol => intQuery (.readNum .w16 .ksym) (atKsym symbol)
  | .read32Ksym symbol => intQuery (.readNum .w32 .ksym) (atKsym symbol)
  | .read64Ksym symbol => intQuery (.readNum .w64 .ksym) (atKsym symbol)
  | .readAddrKsym symbol => intQuery (.readAddr .ksym) (atKsym symbol)
  | .readStrKsym symbol => intQuery (.readStr .ksym) (atKsym symbol)
  | .writePa paddr buf => ⟨.writeBuf .pa,
    vmmsgHelper (.writeBuf .pa)
      [(.paddr, .int paddr), (.buffer, .encoded buf), (.count, .encodedLength buf)],
    bytesWritten (.writeBuf .pa)⟩
  | .writeVa vaddr pid buf => ⟨.writeBuf .va,
    vmmsgHelper (.writeBuf .va) [(.vaddr, .int vaddr), (.pid, .int pid), (.buffer, .encoded buf),
      (.count, .encodedLength buf)],
    bytesWritten (.writeBuf .va)⟩
  | .writeKsym symbol buf => ⟨.writeBuf .ksym,
    vmmsgHelper (.writeBuf .ksym)
      [(.symbol, .given symbol), (.buffer, .given buf), (.count, .length buf)],
    bytesWritten (.writeBuf .ksym)⟩
  | .write8Pa paddr value => statusQuery (.writeNum .w8 .pa)
    (atPa paddr ++ [(.value, .int value)])
  | .write16Pa paddr value => statusQuery (.writeNum .w16 .pa)
    (atPa paddr ++ [(.value, .int value)])
  | .write32Pa paddr value => statusQuery (.writeNum .w32 .pa)
    (atPa paddr ++ [(.value, .int value)])
  | .write64Pa paddr value => statusQuery (.writeNum .w64 .pa)
    (atPa paddr ++ [(.value, .int value)])
  | .write8Va vaddr pid value => statusQuery (.writeNum .w8 .va)
    (atVa vaddr pid ++ [(.value, .int value)])
  | .write16Va vaddr pid value => statusQuery (.writeNum .w16 .va)
    (atVa vaddr pid ++ [(.value, .int value)])
  -- the value goes before the process
  | .write32Va vaddr pid value => statusQuery (.writeNum .w32 .va)
    [(.vaddr, .int vaddr), (.value, .int value), (.pid, .int pid)]
  | .write64Va vaddr pid value => statusQuery (.writeNum .w64 .va)
    (atVa vaddr pid ++ [(.value, .int value)])
  | .write8Ksym symbol value => statusQuery (.writeNum .w8 .ksym)
    (atKsym symbol ++ [(.value, .int value)])
  | .write16Ksym symbol value => statusQuery (.writeNum .w16 .ksym)
    (atKsym symbol ++ [(.value, .int value)])
  | .write32Ksym symbol value => statusQuery (.writeNum .w32 .ksym)
    (atKsym symbol ++ [(.value, .int value)])
  | .write64Ksym symbol value => statusQuery (.writeNum .w64 .ksym)
    (atKsym symbol ++ [(.value, .int value)])
  | .getName => getQuery .getName
  | .getVmid => getQuery .getVmid
  | .getAccessMode => getQuery .getAccessMode
  -- the request is singular, and the index of the reply is left out
  | .getWinver =>
    ⟨.getWinver, vmmsgHelper .getWinver [(.placeholder, .one)], fun _ => .error .typeError⟩
  | .getWinverStr => getQuery .getWinverStr
  | .getVcpureg vaddr pid => intQuery .getVcpureg (atVa vaddr pid)
  | .getMemsize => getQuery .getMemsize
  | .getOffset offset => intQuery .getOffset (atKsym offset)
  | .getOstype => getQuery .getOstype
  | .getPageMode => getQuery .getPageMode

/-- The end of a query: it returns or raises.  The frontend stays as it is. -/
structure QueryAnswer (G : Type) where
  vmi : World G
  result : Except PyError Value

/-- A query, together with the VMI partition's part of it. -/
def ApiQuery.run (env : Env G) (fe : FE) (w : World G) (a : ApiQuery) :
    Except Fault (QueryAnswer G) :=
  match a.query.request with
  | .error e => .ok ⟨w, .error e⟩
  | .ok vmsg => do
    let (w, reply) ← fe.sendDefaultReply env vmsg w
    .ok ⟨w, a.query.read reply⟩

/-! ### What goes out -/

/-- A message of one request of the call `c`, which has no link. -/
structure Asks (c : Call) (vmsg : VMIMessage) : Prop where
  type : vmsg.type = [c.num]
  unlinked : ∀ m, vmsg.request c 0 = .ok m → m.link? = none

theorem ranged_ok {lo hi n : ℤ} {v v' : Val} (h : ranged lo hi n v = .ok v') : v' = v := by
  unfold ranged at h
  split at h
  · cases h
    rfl
  · cases h

/-- No assignment makes a link. -/
theorem checkValue_ne_link {t : FieldType} {x : Arg} {v : Val} (h : checkValue t x = .ok v)
    (l : Linkage) : v ≠ .link l := by
  unfold checkValue at h
  split at h
  case h_6 =>
    split at h
    · cases h
      nofun
    · cases h
  case h_5 | h_7 =>
    cases h
    nofun
  case h_8 => cases h
  -- the integers
  all_goals
    rw [ranged_ok h]
    nofun

theorem setField_link {fields : Descriptor} {m m' : Msg} {arg : FieldName × Operand}
    (h : setField fields m arg = .ok m') (hm : m.link? = none) : m'.link? = none := by
  unfold setField at h
  obtain ⟨x, -, h⟩ := bind_eq_ok.mp h
  split at h
  · cases h
  · obtain ⟨v, hv, h⟩ := bind_eq_ok.mp h
    cases h
    have hne := checkValue_ne_link hv
    unfold Msg.link? at hm ⊢
    by_cases hlink : FieldName.link = arg.1
    · rw [← hlink, Msg.set_val_self]
      cases v with
      | link l => exact absurd rfl (hne l)
      | _ => rfl
    · rw [Msg.set_val_of_ne _ _ hlink]
      exact hm

theorem setFields_link {fields : Descriptor} {args : List (FieldName × Operand)} {m m' : Msg}
    (h : args.foldlM (setField fields) m = .ok m') (hm : m.link? = none) : m'.link? = none := by
  induction args generalizing m with
  | nil =>
    cases h
    exact hm
  | cons arg args ih =>
    rw [List.foldlM_cons] at h
    obtain ⟨m₁, hset, hrest⟩ := bind_eq_ok.mp h
    exact ih hrest (setField_link hset hm)

/-- A request that was assigned to field by field. -/
theorem asks_addCall {c : Call} {args : List (FieldName × Operand)} {submsg : Msg}
    (h : args.foldlM (setField c.requestFields) Msg.empty = .ok submsg) :
    Asks c (VMIMessage.empty.addCall c submsg) := by
  refine ⟨rfl, fun m hm => ?_⟩
  rw [request_addCall] at hm
  cases hm
  exact setFields_link h rfl

theorem vmmsgHelper_asks {c : Call} {args : List (FieldName × Operand)} {vmsg : VMIMessage}
    (h : vmmsgHelper c args = .ok vmsg) : Asks c vmsg := by
  unfold vmmsgHelper at h
  obtain ⟨-, h⟩ := ite_error_eq_ok.mp h
  obtain ⟨submsg, hset, h⟩ := bind_eq_ok.mp h
  cases h
  exact asks_addCall hset

theorem vmsgHelper_asks {c : Call} {args : List (FieldName × Operand)} {vmsg : VMIMessage}
    (h : vmsgHelper c args = .ok vmsg) : Asks c vmsg := by
  unfold vmsgHelper at h
  split at h
  · rename_i hrep
    split at h
    · cases h
      refine ⟨rfl, fun m hm => ?_⟩
      -- there is no request to read
      unfold VMIMessage.request at hm
      rw [if_pos hrep] at hm
      cases hm
    · cases h
  · obtain ⟨submsg, hset, h⟩ := bind_eq_ok.mp h
    cases h
    exact asks_addCall hset

/-- Every query asks for what its call type says. -/
theorem ApiQuery.asks {a : ApiQuery} {vmsg : VMIMessage} (h : a.query.request = .ok vmsg) :
    Asks a.query.call vmsg := by
  cases a <;> dsimp only [ApiQuery.query, intQuery, statusQuery, effectQuery, getQuery] at h ⊢
  case processList | getName | getVmid | getAccessMode | getWinverStr | getMemsize | getOstype |
      getPageMode => exact vmsgHelper_asks h
  all_goals exact vmmsgHelper_asks h

/-- A message of one request without a link is answered by its handler. -/
theorem sendDefaultReply_run {env : Env G} {fe : FE} {c : Call} {vmsg reply : VMIMessage}
    {w w' : World G} (hasks : Asks c vmsg)
    (h : fe.sendDefaultReply env vmsg w = .ok (w', reply)) :
    ∃ r, (handlerOf c).core env (vmsg.request c 0) { w with scratchIdent := fe.identR } =
        .ok (w', r) ∧ reply = record VMIMessage.empty c.replyNum r 0 := by
  unfold FE.sendDefaultReply at h
  rw [processProtobuf_of_type hasks.type, Handler.run_unlinked _ _ _ _ _ _ _ _ hasks.unlinked] at h
  obtain ⟨⟨l, w₁, r₁⟩, hrun, h⟩ := map_eq_ok.mp h
  obtain ⟨⟨w₂, r⟩, hcore, hrun⟩ := map_eq_ok.mp hrun
  cases hrun
  cases h
  exact ⟨r, hcore, rfl⟩

/-- **A query is its handler.** Either nothing is sent, and the VMI partition is as it was; or
    the handler of the query's call type answers, and the query reads its reply. -/
theorem query_run {env : Env G} {fe : FE} {a : ApiQuery} {w : World G} {ans : QueryAnswer G}
    (h : a.run env fe w = .ok ans) :
    (∃ e, a.query.request = .error e ∧ ans = ⟨w, .error e⟩) ∨
    ∃ vmsg r, a.query.request = .ok vmsg ∧
      (handlerOf a.query.call).core env (vmsg.request a.query.call 0)
        { w with scratchIdent := fe.identR } = .ok (ans.vmi, r) ∧
      ans.result = a.query.read (record VMIMessage.empty a.query.call.replyNum r 0) := by
  unfold ApiQuery.run at h
  cases hreq : a.query.request with
  | error e =>
    rw [hreq] at h
    cases h
    exact .inl ⟨e, rfl, rfl⟩
  | ok vmsg =>
    rw [hreq] at h
    obtain ⟨⟨w', reply⟩, hsend, h⟩ := bind_eq_ok.mp h
    cases h
    obtain ⟨r, hcore, hreply⟩ := sendDefaultReply_run (ApiQuery.asks hreq) hsend
    refine .inr ⟨vmsg, r, rfl, hcore, ?_⟩
    rw [← hreply]

end Furnace.App
