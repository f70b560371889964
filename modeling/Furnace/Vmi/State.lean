import Mathlib.Data.List.AList
import Furnace.Proto.Message

namespace Furnace.Vmi

open Furnace.Proto

/-!
# The state of the VMI partition

What a handler of the VMI partition reads and writes.  The outside world — LibVMI, DRAKVUF
and the allocator — is an environment `Env G` that answers every external operation
(`ExtOp`) as a function of the guest state `G`; an out-parameter that a failing call may
leave untouched is an `Option`.

* `World` — the guest, the event registry, the syscall plugin, and three ghost fields: the
  external operations performed so far and the allocation and release of `event_item`s.
* `LinkState` — the link cache and its two cursors, which `process_protobuf` resets.
* `Reply` — what a handler writes into `msg_out`.
-/

/-! ### External operations -/

/-- `status_t`. -/
inductive Status
  | success | failure
  deriving DecidableEq, Repr

/-- The `status` field of a reply. -/
def Status.code : Status → Int32
  | .success => 0
  | .failure => 1

/-- Where a LibVMI access goes: the three address forms of the API. -/
inductive Location
  | pa (paddr : UInt64)
  | va (vaddr : UInt64) (pid : Int32)
  | ksym (symbol : Bytes)
  deriving DecidableEq, Repr

/-- What a trap waits for. -/
inductive TrapKind
  | cr3
  | breakpoint (addr : UInt64) (pid : Int32) (name : Bytes)
  deriving DecidableEq, Repr

/-- A `drakvuf_trap_t`; `data` names the `event_item` it was allocated for. -/
structure Trap where
  kind : TrapKind
  data : ℕ
  deriving DecidableEq, Repr

/-- What `malloc` is called for. -/
inductive Allocation
  | trap | eventItem | buffer (count : ℕ)
  deriving DecidableEq, Repr

/-- The calls the VMI partition makes to LibVMI, DRAKVUF and the allocator.
    `newSyscalls` and `deleteSyscalls` are the constructor and destructor of the syscall
    plugin, which add their own traps. -/
inductive ExtOp
  | translateKv2p (vaddr : UInt64)
  | translateUv2p (vaddr : UInt64) (pid : Int32)
  | translateKsym2v (symbol : Bytes)
  | readNum (w : Width) (l : Location)
  | readAddr (l : Location)
  | readBuf (l : Location) (count : ℕ)
  | readStr (l : Location)
  | writeNum (w : Width) (l : Location) (value : UInt64)
  | writeBuf (l : Location) (count : ℕ) (buffer : Bytes)
  | getName | getVmid | getWinver | getWinverStr | getMemsize
  | getOffset (symbol : Bytes)
  | getConstantRva (symbol : Bytes)
  | getStructMemberRva (structName key : Bytes)
  | pause | resume
  | addTrap (t : Trap)
  | removeTrap (t : Option Trap)
  | newSyscalls | deleteSyscalls
  | malloc (a : Allocation)
  deriving DecidableEq, Repr

/-- What a bulk read leaves behind: the bytes it read, and the memory that follows them
    (the rest of the buffer, never initialised, and what lies after it). -/
structure ReadBuffer where
  bytes : Bytes
  tail : Bytes

/-- The answer to an external operation.  `addTrap`, `newSyscalls` and `malloc` answer
    whether they succeeded. -/
@[reducible] def ExtOp.Res : ExtOp → Type
  | .translateKv2p _ | .translateUv2p _ _ | .translateKsym2v _ => Status × Option UInt64
  | .readNum _ _ | .readAddr _ | .getOffset _ => Status × Option UInt64
  | .readBuf _ _ => Status × ReadBuffer
  | .readStr _ | .getName | .getWinverStr => Option Bytes
  | .writeNum _ _ _ => Status
  | .writeBuf _ _ _ => Status × Option UInt64
  | .getVmid | .getMemsize => UInt64
  | .getWinver => Int32
  | .getConstantRva _ | .getStructMemberRva _ _ => Bool × Option UInt64
  | .pause | .resume | .removeTrap _ | .deleteSyscalls => Unit
  | .addTrap _ | .newSyscalls | .malloc _ => Bool

/-- LibVMI, DRAKVUF and the allocator, as functions of the guest state; `fuel` bounds the
    iterations after which a process list that goes on is taken to go on forever. -/
structure Env (G : Type) where
  exec : (op : ExtOp) → G → op.Res × G
  fuel : ℕ

/-- The number in an address. -/
def Location.address : Location → UInt64
  | .pa a => a
  | .va a _ => a
  | .ksym _ => 0

/-- A guest whose memory holds, at every address, that address, and whose operations all
    succeed.  Concrete runs are taken in it. -/
def echoEnv : Env Unit where
  exec op g := (match op with
    | .translateKv2p v | .translateUv2p v _ => (.success, some v)
    | .translateKsym2v _ => (.success, some 0)
    | .readNum _ l | .readAddr l => (.success, some l.address)
    | .getOffset _ => (.success, some 0)
    | .readBuf _ n => (.success, ⟨List.replicate n 0, []⟩)
    | .readStr _ | .getName | .getWinverStr => some []
    | .writeNum _ _ _ => .success
    | .writeBuf _ n _ => (.success, some (.ofNat n))
    | .getVmid | .getMemsize => 0
    | .getWinver => 0
    | .getConstantRva _ | .getStructMemberRva _ _ => (true, some 0)
    | .pause | .resume | .removeTrap _ | .deleteSyscalls => ()
    | .addTrap _ | .newSyscalls | .malloc _ => true, g)
  fuel := 1

/-! ### Handler state -/

/-- `event_item`.  `obj` is its allocation: a registration's identity, which `free` ends. -/
structure EventItem where
  id : ℕ
  syncState : ℕ
  active : Bool
  event : Option Trap
  owner : Option Bytes
  obj : ℕ
  deriving DecidableEq, Repr

/-- The enumerators of `SyncState`. -/
def fSync : ℕ := 1
def fAsync : ℕ := 2

/-- The members of `furnace` that outlive a message, with the guest they act on. -/
structure World (G : Type) where
  guest : G
  ops : List ExtOp := []
  events : AList fun _ : ℕ => EventItem := ∅
  eventsActive : Bool := false
  syscallPluginOwner : Option Bytes := none
  syscallPluginSyncState : ℕ := 0
  syscallPluginEi : Option ℕ := none
  syscallPluginEventId : ℕ := 0
  scratchIdent : Bytes := []
  nextAlloc : ℕ := 0
  freed : List ℕ := []

/-- The state after the constructor, with the dealer identity of a client. -/
def World.initial {G : Type} (g : G) : World G := { guest := g }

/-- The policy limit `max_events`. -/
def maxEvents : ℕ := 200

variable {G : Type}

/-- Perform an external operation. -/
def World.exec (w : World G) (env : Env G) (op : ExtOp) : op.Res × World G :=
  ((env.exec op w.guest).1, { w with guest := (env.exec op w.guest).2, ops := w.ops ++ [op] })

@[simp] theorem exec_events (w : World G) (env : Env G) (op : ExtOp) :
    (w.exec env op).2.events = w.events := rfl
@[simp] theorem exec_syscallPluginOwner (w : World G) (env : Env G) (op : ExtOp) :
    (w.exec env op).2.syscallPluginOwner = w.syscallPluginOwner := rfl
@[simp] theorem exec_syscallPluginEi (w : World G) (env : Env G) (op : ExtOp) :
    (w.exec env op).2.syscallPluginEi = w.syscallPluginEi := rfl
@[simp] theorem exec_syscallPluginEventId (w : World G) (env : Env G) (op : ExtOp) :
    (w.exec env op).2.syscallPluginEventId = w.syscallPluginEventId := rfl
@[simp] theorem exec_eventsActive (w : World G) (env : Env G) (op : ExtOp) :
    (w.exec env op).2.eventsActive = w.eventsActive := rfl
@[simp] theorem exec_scratchIdent (w : World G) (env : Env G) (op : ExtOp) :
    (w.exec env op).2.scratchIdent = w.scratchIdent := rfl
@[simp] theorem exec_nextAlloc (w : World G) (env : Env G) (op : ExtOp) :
    (w.exec env op).2.nextAlloc = w.nextAlloc := rfl
@[simp] theorem exec_freed (w : World G) (env : Env G) (op : ExtOp) :
    (w.exec env op).2.freed = w.freed := rfl
@[simp] theorem exec_ops (w : World G) (env : Env G) (op : ExtOp) :
    (w.exec env op).2.ops = w.ops ++ [op] := rfl

/-- The link cache, the two search cursors, and the number of the current message. -/
structure LinkState where
  cache : ℕ → Option UInt64 := fun _ => none
  nthType : ℕ := 0
  nthFieldIx : ℕ := 0
  msgno : ℕ := 0

/-! ### Replies -/

/-- What a handler writes into `msg_out`: at most one sub-message, put into the reply field
    of the call, usually together with its type, and at most one error number. -/
structure Reply where
  entry : Option Msg := none
  typed : Bool := entry.isSome
  errorNum : Option ℕ := none

/-- A reply without an error. -/
def Reply.ok (m : Msg) : Reply := { entry := some m }

/-- `set_batch_error(num)` and nothing else. -/
def Reply.fail (num : ℕ) : Reply := { errorNum := some num }

/-- `set_batch_error(num)`, and a reply sub-message nevertheless. -/
def Reply.okWithError (m : Msg) (num : ℕ) : Reply := { entry := some m, errorNum := some num }

/-- `mutable_x_ret()`, then `set_batch_error(num)` and an early return: an empty reply
    sub-message whose type is not added. -/
def Reply.stub (num : ℕ) : Reply :=
  { entry := some Msg.empty, typed := false, errorNum := some num }

/-- Record a handler's reply in the field `n` of `msg_out`; `loc` is the error location. -/
def record (out : VMIMessage) (n : ℕ) (r : Reply) (loc : ℕ) : VMIMessage :=
  let out := match r.entry with
    | some m => out.put n m
    | none => out
  let out := if r.typed then out.addType n else out
  match r.errorNum with
  | some e => { out with error := some true, errorNum := some e, errorLoc := some loc }
  | none => out

/-- The error flag is set exactly by a reply that carries an error number. -/
theorem record_error (out : VMIMessage) (n : ℕ) (r : Reply) (loc : ℕ) :
    (record out n r loc).error = if r.errorNum.isSome then some true else out.error := by
  unfold record
  cases r.entry <;> cases r.typed <;> cases r.errorNum <;> rfl

/-- The error number is the reply's, if it carries one. -/
theorem record_errorNum (out : VMIMessage) (n : ℕ) (r : Reply) (loc : ℕ) :
    (record out n r loc).errorNum = r.errorNum.or out.errorNum := by
  unfold record
  cases r.entry <;> cases r.typed <;> cases r.errorNum <;> rfl

/-- The type list grows by the reply type when the handler adds it. -/
theorem record_type (out : VMIMessage) (n : ℕ) (r : Reply) (loc : ℕ) :
    (record out n r loc).type = out.type ++ (if r.typed then [n] else []) := by
  unfold record
  cases r.entry <;> cases r.typed <;> cases r.errorNum <;> simp [VMIMessage.addType]

/-- Only the reply field changes, and it gains the reply sub-message. -/
theorem record_sub (out : VMIMessage) (n k : ℕ) (r : Reply) (loc : ℕ) :
    (record out n r loc).sub k =
      match r.entry with
      | some m => if k = n then VMIMessage.putList n (out.sub n) m else out.sub k
      | none => out.sub k := by
  unfold record
  cases r.entry with
  | none => cases r.typed <;> cases r.errorNum <;> rfl
  | some m =>
    by_cases h : k = n
    · subst h
      cases r.typed <;> cases r.errorNum <;> simp [VMIMessage.addType]
    · cases r.typed <;> cases r.errorNum <;> simp [VMIMessage.addType, h]

end Furnace.Vmi
