import Mathlib.Logic.Function.Basic
import Furnace.Proto.Schema

namespace Furnace.Proto

/-!
# Messages

The protobuf messages that travel between the app and the VMI partition, as far as the
code reads and writes them.  A sub-message (`Msg`) gives each field an optional value; a
`VMIMessage` holds, for every numbered field, the list of its sub-messages, the list of
message types and the three error scalars.

* `VMIMessage.put` — `add_x()` or `mutable_x()` followed by setting fields, by the label.
* `VMIMessage.merge` — protobuf's `MergeFrom`.
* `VMIMessage.listFields` / `VMIMessage.fieldSize` — the two reflective queries that
  `process_link` makes.  `FieldSize` aborts the process on a singular field.
-/

/-- Raw bytes: C strings without their terminator, `bytes` fields, socket identities. -/
abbrev Bytes := List UInt8

/-! ### Values and sub-messages -/

/-- `Linkage.OperatorType`. -/
inductive OperatorType
  | add | sub | overwrite
  deriving DecidableEq, Repr

/-- A link: which earlier call, which field of its reply, which field of this request, and
    how the two are combined.  Unset fields read as protobuf's defaults. -/
structure Linkage where
  prevMsgIx : ℕ := 0
  prevItemIx : ℕ := 0
  curItemIx : ℕ := 0
  operator : OperatorType := .add
  deriving DecidableEq, Repr

/-- One entry of a process list reply. -/
structure Process where
  pid : Int32
  name : Bytes
  processBlockPtr : UInt64
  deriving DecidableEq, Repr

/-- A field value. -/
inductive Val
  | u64 (v : UInt64) | i64 (v : Int64) | u32 (v : UInt32) | i32 (v : Int32)
  | str (v : Bytes) | bytes (v : Bytes) | enum (v : ℕ) | link (v : Linkage)
  | processes (v : List Process)
  deriving DecidableEq

/-- The value protobuf reads from an unset field. -/
def FieldType.default : FieldType → Val
  | .uint64 => .u64 0
  | .int64 => .i64 0
  | .uint32 => .u32 0
  | .int32 => .i32 0
  | .string => .str []
  | .bytes => .bytes []
  | .enum => .enum 1
  | .message => .link {}
  | .repeatedMessage => .processes []

/-- A sub-message: its set fields. -/
structure Msg where
  val : FieldName → Option Val

namespace Msg

/-- A freshly added sub-message. -/
def empty : Msg := ⟨fun _ => none⟩

/-- `set_f(v)`. -/
def set (m : Msg) (f : FieldName) (v : Val) : Msg := ⟨Function.update m.val f (some v)⟩

@[simp] theorem set_val_self (m : Msg) (f : FieldName) (v : Val) : (m.set f v).val f = some v := by
  simp [set]

@[simp] theorem set_val_of_ne (m : Msg) {f g : FieldName} (v : Val) (h : g ≠ f) :
    (m.set f v).val g = m.val g := by
  simp [set, h]

@[simp] theorem empty_val (f : FieldName) : empty.val f = none := rfl

/-- Set the fields of `m'` over those of `m`. -/
def merge (m m' : Msg) : Msg := ⟨fun f => (m'.val f).or (m.val f)⟩

@[simp] theorem empty_merge (m : Msg) : empty.merge m = m := by
  simp [merge, empty]

/-! `has_f()` and `f()` of a request, by the type of the field. -/

def u64? (m : Msg) (f : FieldName) : Option UInt64 :=
  match m.val f with
  | some (.u64 v) => some v
  | _ => none

def u32? (m : Msg) (f : FieldName) : Option UInt32 :=
  match m.val f with
  | some (.u32 v) => some v
  | _ => none

def i32? (m : Msg) (f : FieldName) : Option Int32 :=
  match m.val f with
  | some (.i32 v) => some v
  | _ => none

def i64? (m : Msg) (f : FieldName) : Option Int64 :=
  match m.val f with
  | some (.i64 v) => some v
  | _ => none

def str? (m : Msg) (f : FieldName) : Option Bytes :=
  match m.val f with
  | some (.str v) => some v
  | _ => none

def bytes? (m : Msg) (f : FieldName) : Option Bytes :=
  match m.val f with
  | some (.bytes v) => some v
  | _ => none

/-- An `enum` field reads as its first enumerator when it is not set. -/
def enumOr1 (m : Msg) (f : FieldName) : ℕ :=
  match m.val f with
  | some (.enum v) => v
  | _ => 1

def link? (m : Msg) : Option Linkage :=
  match m.val .link with
  | some (.link l) => some l
  | _ => none

/-- The value of a declared field, with protobuf's default when it is unset. -/
def get (m : Msg) (fd : FieldDescriptor) : Val := (m.val fd.name).getD fd.type.default

end Msg

/-! ### `VMIMessage` -/

/-- A decoded `VMIMessage`. -/
@[ext] structure VMIMessage where
  sub : ℕ → List Msg := fun _ => []
  type : List ℕ := []
  error : Option Bool := none
  errorNum : Option ℕ := none
  errorLoc : Option ℕ := none

namespace VMIMessage

/-- `Clear()`. -/
def empty : VMIMessage := {}

@[simp] theorem empty_sub (n : ℕ) : empty.sub n = [] := rfl
@[simp] theorem empty_type : empty.type = [] := rfl
@[simp] theorem empty_error : empty.error = none := rfl

/-- Merge a sub-message into the field `n`: append to a repeated field, set the fields of
    a singular one. -/
def putList (n : ℕ) (ms : List Msg) (m : Msg) : List Msg :=
  if isRepeated n then ms ++ [m] else [(ms.headD Msg.empty).merge m]

/-- `add_x()` or `mutable_x()`, then set the fields of `m`. -/
def put (M : VMIMessage) (n : ℕ) (m : Msg) : VMIMessage :=
  { M with sub := Function.update M.sub n (putList n (M.sub n) m) }

@[simp] theorem put_type (M : VMIMessage) (n : ℕ) (m : Msg) : (M.put n m).type = M.type := rfl
@[simp] theorem put_error (M : VMIMessage) (n : ℕ) (m : Msg) : (M.put n m).error = M.error := rfl

@[simp] theorem put_sub_self (M : VMIMessage) (n : ℕ) (m : Msg) :
    (M.put n m).sub n = putList n (M.sub n) m := by
  simp [put]

@[simp] theorem put_sub_of_ne (M : VMIMessage) {n k : ℕ} (m : Msg) (h : k ≠ n) :
    (M.put n m).sub k = M.sub k := by
  simp [put, h]

/-- A sub-message put into a field populates it. -/
theorem putList_ne_nil (n : ℕ) (ms : List Msg) (m : Msg) : putList n ms m ≠ [] := by
  unfold putList
  split <;> simp

/-- `add_type(n)`. -/
def addType (M : VMIMessage) (n : ℕ) : VMIMessage := { M with type := M.type ++ [n] }

/-- Append a request: `type.append(…)`, `add()` and the fields of `m`. -/
def addCall (M : VMIMessage) (c : Call) (m : Msg) : VMIMessage := (M.put c.num m).addType c.num

/-- Merge one field of `B` into the same field of `A`. -/
def mergeList (n : ℕ) (as bs : List Msg) : List Msg :=
  if isRepeated n then as ++ bs
  else match bs with
    | [] => as
    | b :: _ => [(as.headD Msg.empty).merge b]

/-- `A.MergeFrom(B)`. -/
def merge (A B : VMIMessage) : VMIMessage where
  sub n := mergeList n (A.sub n) (B.sub n)
  type := A.type ++ B.type
  error := B.error.or A.error
  errorNum := B.errorNum.or A.errorNum
  errorLoc := B.errorLoc.or A.errorLoc

/-- The number of the `type` field, the last one declared. -/
def typeField : ℕ := 126

/-- Whether a message field other than `type` holds anything. -/
def isPopulated (M : VMIMessage) (n : ℕ) : Bool := !(M.sub n).isEmpty

/-- `Reflection::ListFields`: the numbers of the populated fields, ascending. -/
def listFields (M : VMIMessage) : List ℕ :=
  (List.range' 1 122).filter M.isPopulated
    ++ (if M.error.isSome then [123] else []) ++ (if M.errorNum.isSome then [124] else [])
    ++ (if M.errorLoc.isSome then [125] else [])
    ++ (if M.type.isEmpty then [] else [typeField])

end VMIMessage

/-! ### Faults -/

/-- How the VMI partition can stop working: an access outside a repeated field or a
    descriptor, a reflective query on a field of the wrong label, a NULL C string, a read
    or write past a buffer, a failed `assert`, an uncaught exception, or a loop that does
    not end. -/
inductive Fault
  | outOfRange | wrongLabel | nullDereference | bufferOverrun | assertion | exception | diverged
  deriving DecidableEq, Repr

namespace VMIMessage

/-- `Reflection::FieldSize`: the number of entries of a repeated field; on a singular field
    protobuf aborts. -/
def fieldSize (M : VMIMessage) (n : ℕ) : Except Fault ℕ :=
  -- checked before anything is counted
  if !isRepeated n then .error .wrongLabel
  else if n = typeField then .ok M.type.length
  else .ok (M.sub n).length

/-- `msg->x(index)` for the requests of a call: entry `index` of a repeated field, which
    must exist; the only (or the default) instance of a singular one. -/
def request (M : VMIMessage) (c : Call) (index : ℕ) : Except Fault Msg :=
  if isRepeated c.num then
    match (M.sub c.num)[index]? with
    | some m => .ok m
    | none => .error .outOfRange
  else .ok ((M.sub c.num).headD Msg.empty)

end VMIMessage

end Furnace.Proto
