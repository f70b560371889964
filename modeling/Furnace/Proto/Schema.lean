import Mathlib.Data.Nat.Basic
import Mathlib.Logic.Function.Basic

namespace Furnace.Proto

/-!
# The VMI message schema

The part of `vmi.proto` that the VMI partition and the app share: the call types of
`VMIMessage.Type`, the label (repeated or optional) of every field of `VMIMessage`, and the
fields of each request and reply message, in declaration order — the order that the
reflective accesses `Descriptor::field(i)` use.

* `Call` — the request types.  A call type's enumerator is also the number of the
  `VMIMessage` field that holds its requests, and the next number is its reply's
  (`Call.num`, `Call.replyNum`); `STATUS` alone is its own reply.
* `isRepeated` — the label of a `VMIMessage` field.
* `Call.requestFields` / `Call.replyFields` — the message descriptors.
-/

/-! ### Fields -/

/-- The protobuf field types that `vmi.proto` uses. -/
inductive FieldType
  | uint64 | int64 | uint32 | int32 | string | bytes | enum | message | repeatedMessage
  deriving DecidableEq, Repr

/-- The field names of the request and reply messages; `name` is the key under which
    `results()` stores the label of a call. -/
inductive FieldName
  | vaddr | paddr | pid | link | symbol | count | buffer | value | placeholder
  | status | identifier | eventType | syncState | regValue | bpAddr | bpPid | bpName
  | symbolName | structureName | structureKey
  | result | bytesRead | bytesWritten | process | state | name
  deriving DecidableEq, Repr

/-- One line of a message declaration. -/
structure FieldDescriptor where
  name : FieldName
  number : ℕ
  type : FieldType
  deriving DecidableEq, Repr

/-- A message declaration, in declaration order. -/
abbrev Descriptor := List FieldDescriptor

/-! ### Call types -/

/-- The operand widths of the fixed-width reads and writes. -/
inductive Width
  | w8 | w16 | w32 | w64
  deriving DecidableEq, Repr

/-- The address forms: physical address, virtual address of a process, kernel symbol. -/
inductive Space
  | pa | va | ksym
  deriving DecidableEq, Repr

/-- The request types of `VMIMessage.Type`.  `readNum .w8 .pa` is `READ_8_PA`, `readAddr .va`
    is `READ_ADDR_VA`, `readBuf .ksym` is `READ_KSYM`, and so on. -/
inductive Call
  | eventClear | eventRegister | eventsStart | eventsStop
  | getAccessMode | getMemsize | getName | getOffset | getOstype | getPageMode
  | getVcpureg | getVmid | getWinver | getWinverStr
  | lookupStructure | lookupSymbol | pauseVm
  | readNum (w : Width) (s : Space) | readAddr (s : Space) | readBuf (s : Space)
  | readStr (s : Space)
  | resumeVm | status | translateKsym2v | translateKv2p | translateUv2p
  | writeNum (w : Width) (s : Space) | writeBuf (s : Space)
  | processList | startSyscall | stopSyscall
  deriving DecidableEq, Repr

/-- The enumerator of a call type in `VMIMessage.Type`. -/
def Call.num : Call → ℕ
  | .eventClear => 2
  | .eventRegister => 4
  | .eventsStart => 6
  | .eventsStop => 8
  | .getAccessMode => 10
  | .getMemsize => 12
  | .getName => 14
  | .getOffset => 16
  | .getOstype => 18
  | .getPageMode => 20
  | .getVcpureg => 22
  | .getVmid => 24
  | .getWinver => 26
  | .getWinverStr => 28
  | .lookupStructure => 30
  | .lookupSymbol => 32
  | .pauseVm => 34
  | .readNum .w16 .ksym => 36
  | .readNum .w16 .pa => 38
  | .readNum .w16 .va => 40
  | .readNum .w32 .ksym => 42
  | .readNum .w32 .pa => 44
  | .readNum .w32 .va => 46
  | .readNum .w64 .ksym => 48
  | .readNum .w64 .pa => 50
  | .readNum .w64 .va => 52
  | .readNum .w8 .ksym => 54
  | .readNum .w8 .pa => 56
  | .readNum .w8 .va => 58
  | .readAddr .ksym => 60
  | .readAddr .pa => 62
  | .readAddr .va => 64
  | .readBuf .ksym => 66
  | .readBuf .pa => 68
  | .readStr .ksym => 70
  | .readStr .pa => 72
  | .readStr .va => 74
  | .readBuf .va => 76
  | .resumeVm => 78
  | .status => 80
  | .translateKsym2v => 81
  | .translateKv2p => 83
  | .translateUv2p => 85
  | .writeNum .w16 .ksym => 87
  | .writeNum .w16 .pa => 89
  | .writeNum .w16 .va => 91
  | .writeNum .w32 .ksym => 93
  | .writeNum .w32 .pa => 95
  | .writeNum .w32 .va => 97
  | .writeNum .w64 .ksym => 99
  | .writeNum .w64 .pa => 101
  | .writeNum .w64 .va => 103
  | .writeNum .w8 .ksym => 105
  | .writeNum .w8 .pa => 107
  | .writeNum .w8 .va => 109
  | .writeBuf .ksym => 111
  | .writeBuf .pa => 113
  | .writeBuf .va => 115
  | .processList => 117
  | .startSyscall => 119
  | .stopSyscall => 121

/-- The enumerator of the reply to a call: the next one, except that `STATUS` answers
    `STATUS`. -/
def Call.replyNum : Call → ℕ
  | .status => 80
  | c => c.num + 1

/-- All call types. -/
def Call.all : List Call :=
  [.eventClear, .eventRegister, .eventsStart, .eventsStop, .getAccessMode, .getMemsize, .getName,
    .getOffset, .getOstype, .getPageMode, .getVcpureg, .getVmid, .getWinver, .getWinverStr,
    .lookupStructure, .lookupSymbol, .pauseVm] ++
  [Space.ksym, .pa, .va].flatMap (fun s =>
    [.readNum .w8 s, .readNum .w16 s, .readNum .w32 s, .readNum .w64 s, .readAddr s, .readBuf s,
      .readStr s, .writeNum .w8 s, .writeNum .w16 s, .writeNum .w32 s, .writeNum .w64 s,
      .writeBuf s]) ++
  [.resumeVm, .status, .translateKsym2v, .translateKv2p, .translateUv2p, .processList,
    .startSyscall, .stopSyscall]

/-- The call type with a given enumerator; `none` for `EVENT` and for the reply types. -/
def Call.ofNum? (n : ℕ) : Option Call := Call.all.find? (fun c => c.num = n)

/-- The call type whose replies a `VMIMessage` field holds. -/
def Call.ofReply? (n : ℕ) : Option Call := Call.all.find? (fun c => c.replyNum = n)

theorem Call.mem_all (c : Call) : c ∈ Call.all := by
  cases c
  case readNum w s => cases w <;> cases s <;> decide
  case writeNum w s => cases w <;> cases s <;> decide
  case readAddr s => cases s <;> decide
  case readBuf s => cases s <;> decide
  case readStr s => cases s <;> decide
  case writeBuf s => cases s <;> decide
  all_goals decide

theorem Call.ofNum?_num (c : Call) : Call.ofNum? c.num = some c :=
  (by decide : ∀ c ∈ Call.all, Call.ofNum? c.num = some c) c c.mem_all

theorem Call.ofReply?_replyNum (c : Call) : Call.ofReply? c.replyNum = some c :=
  (by decide : ∀ c ∈ Call.all, Call.ofReply? c.replyNum = some c) c c.mem_all

/-- Call types have different enumerators. -/
theorem Call.num_injective : Function.Injective Call.num := by
  intro c d h
  have hc := Call.ofNum?_num c
  rw [h, Call.ofNum?_num d] at hc
  exact (Option.some.inj hc).symm

/-- The replies of different call types sit in different fields. -/
theorem Call.replyNum_injective : Function.Injective Call.replyNum := by
  intro c d h
  have hc := Call.ofReply?_replyNum c
  rw [h, Call.ofReply?_replyNum d] at hc
  exact (Option.some.inj hc).symm

theorem Call.num_of_ofNum? {n : ℕ} {c : Call} (h : Call.ofNum? n = some c) : c.num = n := by
  simpa using List.find?_some h

/-- Reply fields are numbered like fields, and below the `error` and `type` fields. -/
theorem Call.replyNum_mem_range (c : Call) : 1 ≤ c.replyNum ∧ c.replyNum ≤ 122 :=
  (by decide : ∀ c ∈ Call.all, 1 ≤ c.replyNum ∧ c.replyNum ≤ 122) c c.mem_all

/-! ### Labels -/

/-- The fields of `VMIMessage` declared `optional`; all others are `repeated`. -/
def singularFields : List ℕ :=
  [1, 6, 7, 8, 9, 10, 11, 12, 13, 14, 15, 18, 19, 20, 21, 24, 25, 26, 27, 28, 29, 80,
    119, 120, 121, 122, 123, 124, 125]

/-- Whether a field of `VMIMessage` is declared `repeated`. -/
def isRepeated (n : ℕ) : Bool := n ∉ singularFields

/-- The call types whose request and reply fields are both repeated: those a batch can
    hold. -/
def Call.isBatchable (c : Call) : Bool := isRepeated c.num && isRepeated c.replyNum

theorem Call.isRepeated_replyNum {c : Call} (h : c.isBatchable) : isRepeated c.replyNum := by
  rw [Call.isBatchable, Bool.and_eq_true] at h
  exact h.2

/-- The reply number of a batchable call is its own number plus one. -/
theorem Call.replyNum_of_isBatchable {c : Call} (h : c.isBatchable) :
    c.replyNum = c.num + 1 := by
  cases c
  case status => exact absurd h (by decide)
  all_goals rfl

/-- A call whose request field is repeated has a repeated reply field, and conversely. -/
theorem Call.isRepeated_num_iff (c : Call) : isRepeated c.num = isRepeated c.replyNum :=
  (by decide : ∀ c ∈ Call.all, isRepeated c.num = isRepeated c.replyNum) c c.mem_all

theorem Call.isBatchable_iff (c : Call) : c.isBatchable ↔ isRepeated c.replyNum = true := by
  rw [Call.isBatchable, Call.isRepeated_num_iff, Bool.and_self]

/-! ### Message declarations -/

/-- The address fields of a request, ahead of its other fields. -/
def Space.addressFields : Space → Descriptor
  | .pa => [⟨.paddr, 1, .uint64⟩]
  | .va => [⟨.vaddr, 1, .uint64⟩, ⟨.pid, 2, .int32⟩]
  | .ksym => [⟨.symbol, 1, .string⟩]

/-- The fields of a fixed-width, address or string read request: an address and, except
    for kernel symbols, a link numbered `3`. -/
def Space.readFields : Space → Descriptor
  | .ksym => Space.ksym.addressFields
  | s => s.addressFields ++ [⟨.link, 3, .message⟩]

/-- The width of the `value` field of a write request. -/
def Width.valueType : Width → FieldType
  | .w64 => .int64
  | _ => .int32

/-- The type of the `result` field of a fixed-width read reply. -/
def Width.resultType : Width → FieldType
  | .w64 => .uint64
  | _ => .uint32

/-- The fields of the request message of a call. -/
def Call.requestFields : Call → Descriptor
  | .eventClear => [⟨.identifier, 1, .uint64⟩]
  | .eventRegister =>
    [⟨.eventType, 1, .enum⟩, ⟨.syncState, 2, .enum⟩, ⟨.regValue, 3, .enum⟩, ⟨.bpAddr, 4, .uint64⟩,
      ⟨.bpPid, 5, .int32⟩, ⟨.bpName, 6, .string⟩]
  | .eventsStart | .eventsStop | .pauseVm | .resumeVm => [⟨.status, 1, .int32⟩]
  | .getAccessMode | .getMemsize | .getName | .getOstype | .getPageMode | .getVmid | .getWinver
  | .getWinverStr | .processList => [⟨.placeholder, 1, .int32⟩]
  | .getOffset | .translateKsym2v => [⟨.symbol, 1, .string⟩]
  | .getVcpureg => [⟨.vaddr, 1, .uint64⟩, ⟨.pid, 2, .int32⟩]
  | .lookupStructure => [⟨.structureName, 1, .string⟩, ⟨.structureKey, 2, .string⟩]
  | .lookupSymbol => [⟨.symbolName, 1, .string⟩]
  | .readNum _ s | .readAddr s | .readStr s => s.readFields
  | .readBuf .pa => [⟨.paddr, 1, .uint64⟩, ⟨.count, 2, .int32⟩, ⟨.link, 3, .message⟩]
  | .readBuf .va =>
    [⟨.vaddr, 1, .uint64⟩, ⟨.count, 2, .int32⟩, ⟨.pid, 3, .int32⟩, ⟨.link, 4, .message⟩]
  | .readBuf .ksym => [⟨.symbol, 1, .string⟩, ⟨.count, 2, .int32⟩]
  | .status => [⟨.state, 1, .uint64⟩]
  | .translateKv2p => [⟨.vaddr, 1, .uint64⟩, ⟨.link, 3, .message⟩]
  | .translateUv2p => [⟨.vaddr, 1, .uint64⟩, ⟨.pid, 2, .int32⟩, ⟨.link, 3, .message⟩]
  | .writeNum w .pa => [⟨.paddr, 1, .uint64⟩, ⟨.value, 2, w.valueType⟩, ⟨.link, 3, .message⟩]
  | .writeNum w .va =>
    [⟨.vaddr, 1, .uint64⟩, ⟨.pid, 2, .int32⟩, ⟨.value, 3, w.valueType⟩, ⟨.link, 4, .message⟩]
  | .writeNum w .ksym => [⟨.symbol, 1, .string⟩, ⟨.value, 2, w.valueType⟩]
  | .writeBuf .pa =>
    [⟨.paddr, 1, .uint64⟩, ⟨.count, 2, .int32⟩, ⟨.buffer, 3, .bytes⟩, ⟨.link, 4, .message⟩]
  | .writeBuf .va =>
    [⟨.vaddr, 1, .uint64⟩, ⟨.pid, 2, .int32⟩, ⟨.count, 3, .int32⟩, ⟨.buffer, 4, .bytes⟩,
      ⟨.link, 5, .message⟩]
  | .writeBuf .ksym => [⟨.symbol, 1, .string⟩, ⟨.count, 2, .int32⟩, ⟨.buffer, 3, .bytes⟩]
  | .startSyscall => [⟨.syncState, 1, .enum⟩]
  | .stopSyscall => []

/-- A reply that carries a result and a status. -/
def resultStatus (t : FieldType) : Descriptor := [⟨.result, 1, t⟩, ⟨.status, 2, .int32⟩]

/-- A reply that carries a status and an identifier or result. -/
def statusThen (f : FieldName) : Descriptor := [⟨.status, 1, .int32⟩, ⟨f, 2, .uint64⟩]

/-- The fields of the reply message of a call. -/
def Call.replyFields : Call → Descriptor
  | .eventClear | .eventRegister | .startSyscall => statusThen .identifier
  | .lookupStructure | .lookupSymbol => statusThen .result
  | .eventsStart | .eventsStop | .pauseVm | .resumeVm | .stopSyscall => [⟨.status, 1, .int32⟩]
  | .getAccessMode | .getVcpureg | .getVmid | .getWinver => resultStatus .uint32
  | .getMemsize | .getOffset => resultStatus .uint64
  | .getName | .getOstype | .getPageMode | .getWinverStr => resultStatus .string
  | .readNum w _ => resultStatus w.resultType
  | .readAddr _ => resultStatus .uint64
  | .readStr _ => resultStatus .string
  | .readBuf _ => resultStatus .bytes ++ [⟨.bytesRead, 3, .int64⟩]
  | .status => [⟨.state, 1, .uint64⟩]
  | .translateKsym2v | .translateKv2p | .translateUv2p => resultStatus .uint64
  | .writeNum _ _ => [⟨.status, 1, .int32⟩]
  | .writeBuf _ => [⟨.bytesWritten, 1, .int64⟩, ⟨.status, 2, .int32⟩]
  | .processList => [⟨.process, 1, .repeatedMessage⟩, ⟨.status, 2, .int32⟩]

/-- The declaration of the messages that a reply field of `VMIMessage` holds. -/
def replyDescriptor (n : ℕ) : Descriptor :=
  match Call.ofReply? n with
  | some c => c.replyFields
  | none => []

@[simp] theorem replyDescriptor_replyNum (c : Call) :
    replyDescriptor c.replyNum = c.replyFields := by
  rw [replyDescriptor, Call.ofReply?_replyNum]

end Furnace.Proto
