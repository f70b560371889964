import Furnace.App.Access
import Furnace.Vmi.Frame

namespace Furnace.App

open Furnace.Proto Furnace.Lib Furnace.Vmi
open Furnace.Lib.PyText (Str)

/-!
# Buffers and strings

The reads and writes of variable length.  Six functions read and three write, and they differ in
how a length travels: with the bytes, as a field of its own, or not at all.

* `VarRead` — the six reads, with what the app asks each of them for.
* `delivers_iff` — **the guest's bytes arrive** through `read_pa`, `read_va` and `read_str_va`,
  and through no other.
* `storesBytes_iff` — **bytes can be written** through `write_ksym` only; no handler announces
  to LibVMI another length than its buffer's.
-/

variable {G : Type}

/-! ### Bulk reads -/

/-- The `count` field of a request. -/
theorem checkValue_count {n : ℕ} (hn : n < 2 ^ 24) :
    checkValue .int32 (.int n) = .ok (.i32 (.ofInt n)) :=
  ranged_eq_ok (by omega) _

theorem count?_eq {m : Msg} {n : ℕ} (hn : n < 2 ^ 24) (hm : m.val .count = some (.i32 (.ofInt n))) :
    count? m = some n := by
  have hcast : (Int32.ofInt n).toUInt32 = UInt32.ofNat n := rfl
  have hmod : n % 2 ^ 32 = n := by omega
  simpa [count?, Msg.i32?, hm, hcast] using hmod

theorem countOk_of {n : ℕ} (hpos : 1 ≤ n) (hn : n < 2 ^ 24) : countOk n = true := by
  simp only [countOk, Bool.and_eq_true, decide_eq_true_eq]
  exact ⟨hpos, hn⟩

/-- The reply of `process_read_pa` and `process_read_va`. -/
def bufferReply (b : Bytes) : Msg :=
  (resultWith (.bytes b) .success).set .bytesRead (.i64 (.ofNat b.length))

theorem readBufBody_run {env : Env G} {w : World G} {s : Space} {m : Msg} {l : Location} {n : ℕ}
    {b tail : Bytes} {g₁ g₂ : G} (hl : location s m = some l) (hn : count? m = some n)
    (hok : countOk n = true) (halloc : env.exec (.malloc (.buffer n)) w.guest = (true, g₁))
    (hread : env.exec (.readBuf l n) g₁ = ((.success, ⟨b, tail⟩), g₂)) :
    readBufBody s env (.ok m) w =
      .ok (performed (performed w (.malloc (.buffer n)) g₁) (.readBuf l n) g₂,
        .ok (bufferReply b)) := by
  have hbuffer : allocBuffer env m w = (some n, performed w (.malloc (.buffer n)) g₁) := by
    unfold allocBuffer
    rw [hn]
    dsimp only
    rw [exec_eq halloc]
    simp [hok]
  unfold readBufBody reading
  rw [ok_bind]
  dsimp only
  rw [hbuffer, hl]
  dsimp only
  rw [exec_eq (w := performed w (.malloc (.buffer n)) g₁) hread]
  rfl

theorem bufferResult_record {s : Space} (hs : s ≠ .ksym) (b : Bytes) :
    bufferResult (.readBuf s)
      (record VMIMessage.empty (Call.readBuf s).replyNum (.ok (bufferReply b)) 0) =
      .ok (.field (.bytes b)) := by
  cases s with
  | ksym => exact absurd rfl hs
  | pa | va =>
    unfold bufferResult
    rw [firstReply_record rfl]
    rfl

/-! ### Strings -/

theorem readStrBody_run {env : Env G} {w : World G} {s : Space} {m : Msg} {l : Location} {b : Bytes}
    {g : G} (hl : location s m = some l) (hread : env.exec (.readStr l) w.guest = (some b, g)) :
    readStrBody s env (.ok m) w =
      .ok (performed w (.readStr l) g, .ok (resultWith (.str b) .success)) := by
  unfold readStrBody reading
  rw [ok_bind]
  dsimp only
  rw [hl]
  dsimp only
  rw [exec_eq hread]

/-- `int(result)` is a number, whatever the result. -/
theorem intResult_ne_field (c : Call) (reply : VMIMessage) (v : Val) :
    intResult c reply ≠ .ok (.field v) := by
  intro h
  obtain ⟨⟨st, result⟩, -, h⟩ := bind_eq_ok.mp h
  obtain ⟨n, -, h⟩ := bind_eq_ok.mp h
  cases h

/-! ### The six reads -/

/-- A read of variable length, and what the app is after.  `read_ksym` takes no symbol and no
    count, only `vaddr` and `pid`. -/
inductive VarRead
  | pa (paddr : UInt64) (count : ℕ)
  | va (vaddr : UInt64) (pid : Int32) (count : ℕ)
  | ksym (symbol : Str) (count : ℕ) (vaddr pid : PyInt)
  | str (p : Place)

/-- `read_pa`, `read_va`, `read_ksym`, `read_str_pa`, `read_str_va` and `read_str_ksym`. -/
def VarRead.apiQuery : VarRead → ApiQuery
  | .pa paddr count => .readPa (.ok paddr.toNat) (.ok count)
  | .va vaddr pid count => .readVa (.ok vaddr.toNat) (.ok pid.toInt) (.ok count)
  | .ksym _ _ vaddr pid => .readKsym vaddr pid
  | .str (.pa paddr) => .readStrPa (.ok paddr.toNat)
  | .str (.va vaddr pid) => .readStrVa (.ok vaddr.toNat) (.ok pid.toInt)
  | .str (.ksym symbol) => .readStrKsym (.text symbol)

/-- LibVMI reads the `n` bytes `b` at a location, into a buffer that can be allocated. -/
def HoldsBuffer (env : Env G) (g : G) (l : Location) (n : ℕ) (b : Bytes) : Prop :=
  1 ≤ n ∧ n < 2 ^ 24 ∧ b.length = n ∧
    ∃ g₁ g₂ tail, env.exec (.malloc (.buffer n)) g = (true, g₁) ∧
      env.exec (.readBuf l n) g₁ = ((.success, ⟨b, tail⟩), g₂)

/-- The guest holds `b` where the app reads. -/
def VarRead.Holds (env : Env G) (g : G) (b : Bytes) : VarRead → Prop
  | .pa paddr count => HoldsBuffer env g (.pa paddr) count b
  | .va vaddr pid count => HoldsBuffer env g (.va vaddr pid) count b
  | .ksym symbol count _ _ => HoldsBuffer env g (Place.ksym symbol).location count b
  | .str p => ∃ g', env.exec (.readStr p.location) g = (some b, g')

/-- `b` as the app gets it. -/
def VarRead.value (b : Bytes) : VarRead → Val
  | .str _ => .str b
  | _ => .bytes b

/-- The call returns `b`. -/
def VarRead.Delivers (env : Env G) (fe : FE) (w : World G) (b : Bytes) (q : VarRead) : Prop :=
  ∃ w', q.apiQuery.run env fe w = .ok ⟨w', .ok (.field (q.value b))⟩

/-- The three functions that carry the length and convert nothing. -/
def VarRead.Faithful : VarRead → Prop
  | .pa _ _ | .va _ _ _ | .str (.va _ _) => True
  | _ => False

theorem readPa_run {env : Env G} {fe : FE} {w : World G} {paddr : UInt64} {n : ℕ} {b : Bytes}
    (h : HoldsBuffer env w.guest (.pa paddr) n b) :
    ∃ w', (VarRead.pa paddr n).apiQuery.run env fe w = .ok ⟨w', .ok (.field (.bytes b))⟩ := by
  obtain ⟨hpos, hlt, -, g₁, g₂, tail, halloc, hread⟩ := h
  let m := (Msg.empty.set .paddr (.u64 paddr)).set .count (.i32 (.ofInt n))
  have hreq : vmmsgHelper (.readBuf .pa)
      [(.paddr, .int (.ok paddr.toNat)), (.count, .int (.ok n))] =
      .ok (VMIMessage.empty.addCall (.readBuf .pa) m) := by
    refine vmmsgHelper_ok rfl (setFields_cons rfl rfl (checkValue_u64 paddr) ?_)
    exact setFields_cons rfl rfl (checkValue_count hlt) rfl
  have hl : location .pa m = some (.pa paddr) := rfl
  have hn : count? m = some n := count?_eq hlt rfl
  have hbody := readBufBody_run (w := fe.asking w) hl hn (countOk_of hpos hlt) halloc hread
  exact ⟨_, ApiQuery.run_eq rfl hreq hbody (bufferResult_record (by decide) b)⟩

theorem readVa_run {env : Env G} {fe : FE} {w : World G} {vaddr : UInt64} {pid : Int32} {n : ℕ}
    {b : Bytes} (h : HoldsBuffer env w.guest (.va vaddr pid) n b) :
    ∃ w', (VarRead.va vaddr pid n).apiQuery.run env fe w = .ok ⟨w', .ok (.field (.bytes b))⟩ := by
  obtain ⟨hpos, hlt, -, g₁, g₂, tail, halloc, hread⟩ := h
  let m := ((Msg.empty.set .vaddr (.u64 vaddr)).set .count (.i32 (.ofInt n))).set .pid (.i32 pid)
  have hreq : vmmsgHelper (.readBuf .va) [(.vaddr, .int (.ok vaddr.toNat)),
      (.count, .int (.ok n)), (.pid, .int (.ok pid.toInt))] =
      .ok (VMIMessage.empty.addCall (.readBuf .va) m) := by
    refine vmmsgHelper_ok rfl (setFields_cons rfl rfl (checkValue_u64 vaddr) ?_)
    refine setFields_cons rfl rfl (checkValue_count hlt) ?_
    exact setFields_cons rfl rfl (checkValue_i32 pid) rfl
  have hl : location .va m = some (.va vaddr pid) := rfl
  have hn : count? m = some n := count?_eq hlt rfl
  have hbody := readBufBody_run (w := fe.asking w) hl hn (countOk_of hpos hlt) halloc hread
  exact ⟨_, ApiQuery.run_eq rfl hreq hbody (bufferResult_record (by decide) b)⟩

theorem readStrVa_run {env : Env G} {fe : FE} {w : World G} {vaddr : UInt64} {pid : Int32}
    {b : Bytes} {g : G} (hread : env.exec (.readStr (.va vaddr pid)) w.guest = (some b, g)) :
    (ApiQuery.readStrVa (.ok vaddr.toNat) (.ok pid.toInt)).run env fe w =
      .ok ⟨performed (fe.asking w) (.readStr (.va vaddr pid)) g, .ok (.field (.str b))⟩ := by
  obtain ⟨m, hset, hm⟩ := (Place.va vaddr pid).assign
  have hreq : vmmsgHelper (.readStr .va) (Place.va vaddr pid).args =
      .ok (VMIMessage.empty.addCall (.readStr .va) m) := vmmsgHelper_ok rfl hset
  have hbody := readStrBody_run (w := fe.asking w) (Place.location_eq hm) hread
  have hresult : plainResult (.readStr .va) (record VMIMessage.empty (Call.readStr .va).replyNum
      (.ok (resultWith (.str b) .success)) 0) = .ok (.field (.str b)) := by
    unfold plainResult mgetStatusResult
    rw [firstReply_record rfl, ok_bind, statusResult_resultWith rfl]
    rfl
  exact ApiQuery.run_eq rfl hreq hbody hresult

/-- `read_ksym` assigns to fields that its request does not have. -/
theorem readKsym_refused (vaddr pid : PyInt) :
    ∃ e, (ApiQuery.readKsym vaddr pid).query.request = .error e := by
  cases vaddr with
  | error e => exact ⟨e, rfl⟩
  | ok n => exact ⟨.attributeError, rfl⟩

/-- What `int(result)` returns is no text. -/
theorem not_delivers_int {env : Env G} {fe : FE} {w : World G} {b : Bytes} {q : VarRead} {c : Call}
    {args : List (FieldName × Operand)} (hq : q.apiQuery.query = intQuery c args) :
    ¬q.Delivers env fe w b := by
  rintro ⟨w', hrun⟩
  rcases query_run hrun with ⟨e, -, hans⟩ | ⟨vmsg, r, -, -, hans⟩
  · cases hans
  · rw [hq] at hans
    exact intResult_ne_field _ _ _ hans.symm

/-- **The guest's bytes arrive** through the three faithful functions, and through no other. -/
theorem delivers_iff {env : Env G} {fe : FE} {w : World G} {q : VarRead} {b : Bytes}
    (h : q.Holds env w.guest b) : q.Delivers env fe w b ↔ q.Faithful := by
  cases q with
  | pa paddr count => exact iff_of_true (readPa_run h) trivial
  | va vaddr pid count => exact iff_of_true (readVa_run h) trivial
  | ksym symbol count vaddr pid =>
    refine iff_of_false ?_ id
    rintro ⟨w', hrun⟩
    obtain ⟨e, hreq⟩ := readKsym_refused vaddr pid
    have hrefused : (ApiQuery.readKsym vaddr pid).run env fe w = .ok ⟨w, .error e⟩ :=
      ApiQuery.run_refused hreq
    have hboth := hrun.symm.trans hrefused
    cases hboth
  | str p =>
    cases p with
    | pa paddr => exact iff_of_false (not_delivers_int rfl) id
    | va vaddr pid =>
      obtain ⟨g', hread⟩ := h
      exact iff_of_true ⟨_, readStrVa_run hread⟩ trivial
    | ksym symbol => exact iff_of_false (not_delivers_int rfl) id

/-- The name of a process raises when it is read through `read_str_pa`, and `read_ksym` raises
    before it asks. -/
theorem delivers_fails :
    (VarRead.str (.pa 4096)).Holds memoryEnv [98, 97, 115, 104, 0] [98, 97, 115, 104] ∧
    (∃ w', (VarRead.str (.pa 4096)).apiQuery.run memoryEnv ⟨[1], ∅, ∅, 0, false⟩
      (World.initial [98, 97, 115, 104, 0]) = .ok ⟨w', .error .valueError⟩) ∧
    ¬(VarRead.str (.pa 4096)).Delivers memoryEnv ⟨[1], ∅, ∅, 0, false⟩
      (World.initial [98, 97, 115, 104, 0]) [98, 97, 115, 104] ∧
    (VarRead.ksym ['x'] 4 (.ok 4096) (.ok 0)).Holds memoryEnv [98, 97, 115, 104, 0]
      [98, 97, 115, 104] ∧
    (VarRead.ksym ['x'] 4 (.ok 4096) (.ok 0)).apiQuery.run memoryEnv ⟨[1], ∅, ∅, 0, false⟩
      (World.initial [98, 97, 115, 104, 0]) =
      .ok ⟨World.initial [98, 97, 115, 104, 0], .error .attributeError⟩ := by
  refine ⟨⟨_, rfl⟩, ⟨_, rfl⟩, not_delivers_int rfl, ⟨by decide, by decide, rfl, _, _, _, rfl, rfl⟩,
    rfl⟩

/-- Zero bytes arrive through `read_va`. -/
theorem delivers_iff_zeroBytes :
    (VarRead.va 0xffff880000000000 0 4).Delivers memoryEnv ⟨[1], ∅, ∅, 0, false⟩
      (World.initial [7, 0, 0, 9, 1]) [7, 0, 0, 9] := by
  have hholds : (VarRead.va 0xffff880000000000 0 4).Holds memoryEnv
      (World.initial [7, 0, 0, 9, 1]).guest [7, 0, 0, 9] :=
    ⟨by decide, by decide, rfl, _, _, _, rfl, rfl⟩
  exact (delivers_iff hholds).mpr trivial

/-! ### Bulk writes -/

/-- `write_pa`, `write_va` and `write_ksym`. -/
def writeBuf (p : Place) (buf : Arg) : ApiQuery :=
  match p with
  | .pa paddr => .writePa (.ok paddr.toNat) buf
  | .va vaddr pid => .writeVa (.ok vaddr.toNat) (.ok pid.toInt) buf
  | .ksym symbol => .writeKsym (.text symbol) buf

/-- LibVMI writes all of `b` to a location, and reads it back. -/
def KeepsBuffer (env : Env G) (l : Location) (b : Bytes) (g : G) : Prop :=
  ∃ g₁ g₂ tail,
    env.exec (.writeBuf l b.length b) g = ((.success, some (.ofNat b.length)), g₁) ∧
    env.exec (.readBuf l b.length) g₁ = ((.success, ⟨b, tail⟩), g₂)

/-- The call takes the bytes `b`, announces their number, returns it, and leaves exactly `b` at
    the place. -/
def StoresBytes (env : Env G) (fe : FE) (w : World G) (p : Place) (b : Bytes) : Prop :=
  ∃ m w', (writeBuf p (.bytes b)).query.request =
      .ok (VMIMessage.empty.addCall (.writeBuf p.space) m) ∧
    m.i32? .count = some (.ofInt b.length) ∧
    (writeBuf p (.bytes b)).run env fe w = .ok ⟨w', .ok (.int b.length)⟩ ∧
    ∃ tail g, env.exec (.readBuf p.location b.length) w'.guest = ((.success, ⟨b, tail⟩), g)

theorem writeBufBody_run {env : Env G} {w : World G} {s : Space} {m : Msg} {l : Location}
    {b : Bytes} {st : Status} {v : UInt64} {g : G} (hl : location s m = some l)
    (hbuffer : writeBuffer? m = some (b.length, b))
    (hexec : env.exec (.writeBuf l b.length b) w.guest = ((st, some v), g)) :
    writeBufBody s env (.ok m) w = .ok (performed w (.writeBuf l b.length b) g,
      .ok ((Msg.empty.set .bytesWritten (.i64 v.toInt64)).set .status (.i32 st.code))) := by
  unfold writeBufBody reading
  rw [ok_bind]
  dsimp only
  rw [hl, hbuffer]
  dsimp only
  rw [exec_eq hexec]
  rfl

/-- The assignments of a bulk write. -/
def writeBufArgs (p : Place) (buf : Arg) : List (FieldName × Operand) :=
  match p with
  | .ksym symbol => [(.symbol, .given (.text symbol)), (.buffer, .given buf), (.count, .length buf)]
  | p => p.args ++ [(.buffer, .encoded buf), (.count, .encodedLength buf)]

theorem writeBuf_query (p : Place) (buf : Arg) :
    (writeBuf p buf).query = ⟨.writeBuf p.space,
      vmmsgHelper (.writeBuf p.space) (writeBufArgs p buf), bytesWritten (.writeBuf p.space)⟩ := by
  cases p <;> rfl

/-- `buf.encode()` raises on bytes. -/
theorem writeBuf_refused {p : Place} (hp : p.space ≠ .ksym) (b : Bytes) :
    (writeBuf p (.bytes b)).query.request = .error .attributeError := by
  rw [writeBuf_query]
  cases p with
  | ksym symbol => exact absurd rfl hp
  | pa paddr =>
    show vmmsgHelper (.writeBuf .pa) _ = _
    refine vmmsgHelper_error rfl (setFields_cons rfl rfl (checkValue_u64 paddr) ?_)
    rfl
  | va vaddr pid =>
    show vmmsgHelper (.writeBuf .va) _ = _
    refine vmmsgHelper_error rfl (setFields_cons rfl rfl (checkValue_u64 vaddr) ?_)
    refine setFields_cons rfl rfl (checkValue_i32 pid) ?_
    rfl

/-- `write_ksym` takes the bytes as they are. -/
theorem writeBuf_ksym_request (symbol : Str) {b : Bytes} (hlt : b.length < 2 ^ 24) :
    (writeBuf (.ksym symbol) (.bytes b)).query.request = .ok (VMIMessage.empty.addCall
      (.writeBuf .ksym) (((Msg.empty.set .symbol (.str (Utf8.encode symbol))).set .buffer
        (.bytes b)).set .count (.i32 (.ofInt b.length)))) := by
  rw [writeBuf_query]
  show vmmsgHelper (.writeBuf .ksym) _ = _
  refine vmmsgHelper_ok rfl (setFields_cons (x := .text symbol) rfl rfl rfl ?_)
  refine setFields_cons (x := .bytes b) rfl rfl rfl ?_
  exact setFields_cons rfl rfl (checkValue_count hlt) rfl

theorem writeBuffer?_eq {m : Msg} {b : Bytes} (hne : b ≠ []) (hlt : b.length < 2 ^ 24)
    (hcount : m.val .count = some (.i32 (.ofInt b.length)))
    (hbuffer : m.val .buffer = some (.bytes b)) : writeBuffer? m = some (b.length, b) := by
  have hn := count?_eq hlt hcount
  have hb : m.bytes? .buffer = some b := by simp [Msg.bytes?, hbuffer]
  have hok := countOk_of (List.length_pos_of_ne_nil hne) hlt
  unfold writeBuffer?
  rw [hn, hb]
  simp [hok]

/-- The number of bytes written comes back through an `int64`. -/
theorem bytesWritten_record {s : Space} {n : ℕ} (hn : n < 2 ^ 24) (st : Status) :
    bytesWritten (.writeBuf s) (record VMIMessage.empty (Call.writeBuf s).replyNum
      (.ok ((Msg.empty.set .bytesWritten (.i64 (UInt64.ofNat n).toInt64)).set .status
        (.i32 st.code))) 0) = .ok (.int n) := by
  have hrep : isRepeated (Call.writeBuf s).replyNum = true := by cases s <;> rfl
  have htoInt : (UInt64.ofNat n).toInt64.toInt = n := by
    rw [UInt64.toInt64_ofNat']
    exact Int64.toInt_ofNat_of_lt (by omega)
  have hint : intOf (.i64 (UInt64.ofNat n).toInt64) = .ok (n : ℤ) := congrArg _ htoInt
  unfold bytesWritten
  rw [firstReply_record hrep, ok_bind]
  show (intOf (.i64 (UInt64.ofNat n).toInt64) >>= fun n => Except.ok (Value.int n)) = _
  rw [hint]
  rfl

theorem storesBytes_ksym {env : Env G} {fe : FE} {w : World G} {symbol : Str} {b : Bytes}
    (hne : b ≠ []) (hlt : b.length < 2 ^ 24)
    (hkeeps : KeepsBuffer env (Place.ksym symbol).location b w.guest) :
    StoresBytes env fe w (.ksym symbol) b := by
  obtain ⟨g₁, g₂, tail, hwrite, hread⟩ := hkeeps
  let m := ((Msg.empty.set .symbol (.str (Utf8.encode symbol))).set .buffer (.bytes b)).set .count
    (.i32 (.ofInt b.length))
  have hreq := writeBuf_ksym_request symbol hlt
  have hl : location .ksym m = some (Place.ksym symbol).location := rfl
  have hbuffer : writeBuffer? m = some (b.length, b) := writeBuffer?_eq hne hlt rfl rfl
  have hbody := writeBufBody_run (w := fe.asking w) hl hbuffer hwrite
  have hreq' := hreq
  rw [writeBuf_query] at hreq'
  have hrun := ApiQuery.run_eq (writeBuf_query _ _) hreq' hbody (bytesWritten_record hlt _)
  exact ⟨m, _, hreq, rfl, hrun, tail, g₂, hread⟩

/-- **Bytes can be written** to a symbol only, and no handler announces to LibVMI another length
    than that of the buffer it hands over. -/
theorem storesBytes_iff {env : Env G} {fe : FE} {w : World G} {p : Place} {b : Bytes}
    (hne : b ≠ []) (hlt : b.length < 2 ^ 24) (hkeeps : KeepsBuffer env p.location b w.guest) :
    (StoresBytes env fe w p b ↔ p.space = .ksym) ∧
    ∀ msgIn out v v', processProtobuf env msgIn v = .ok (v', out) → Sized v v' := by
  refine ⟨⟨?_, ?_⟩, fun _ _ _ _ => processProtobuf_sized⟩
  · rintro ⟨m, w', hreq, -⟩
    by_contra hp
    rw [writeBuf_refused hp] at hreq
    cases hreq
  · intro hp
    cases p with
    | ksym symbol => exact storesBytes_ksym hne hlt hkeeps
    | pa | va => cases hp

/-- What `read_pa` returned cannot be written back with `write_pa`. -/
theorem storesBytes_fails :
    KeepsBuffer memoryEnv (.pa 4096) [0, 255] [9, 9, 9] ∧
    (writeBuf (.pa 4096) (.bytes [0, 255])).run memoryEnv ⟨[1], ∅, ∅, 0, false⟩
      (World.initial [9, 9, 9]) = .ok ⟨World.initial [9, 9, 9], .error .attributeError⟩ ∧
    ¬StoresBytes memoryEnv ⟨[1], ∅, ∅, 0, false⟩ (World.initial [9, 9, 9]) (.pa 4096) [0, 255] := by
  refine ⟨⟨_, _, _, rfl, rfl⟩, rfl, ?_⟩
  rintro ⟨m, w', hreq, -⟩
  rw [writeBuf_refused (by decide)] at hreq
  cases hreq

/-- They can be written to a symbol. -/
theorem storesBytes_iff_ksym :
    StoresBytes memoryEnv ⟨[1], ∅, ∅, 0, false⟩ (World.initial [9, 9, 9]) (.ksym ['x'])
      [0, 255] := by
  have hkeeps : KeepsBuffer memoryEnv (Place.ksym ['x']).location [0, 255]
      (World.initial [9, 9, 9]).guest := ⟨_, _, _, rfl, rfl⟩
  exact (storesBytes_iff (by decide) (by decide) hkeeps).1.mpr rfl

end Furnace.App
