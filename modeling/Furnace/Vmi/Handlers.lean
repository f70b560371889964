import Furnace.Lib.Outcome
import Furnace.Vmi.Link
import Mathlib.Algebra.Group.Nat.Defs

namespace Furnace.Vmi

open Furnace.Proto Furnace.Lib

/-!
# The handlers of the stateless calls

One definition for each `furnace::process_*` that reads or writes the guest.  The handlers
of one family (the fixed-width reads, the bulk writes, …) are one body applied to a width
and an address form.

* `Handler` — a body, and whether the handler resolves a link before it; `Handler.run` runs
  it for one request.
* `Handler.run_unlinked` / `Handler.run_cases` — without a link a handler depends on its
  request and the world only; it touches the link state only through `process_link`.
* `Handler.run_body` — what a handler does is what its body does, for some request.
* `Body.Complete` — a handler that does not set the error flag adds exactly one reply
  sub-message and its type.
-/

variable {G : Type}

/-! ### Handlers -/

/-- What a handler does with its request.  Reading the request is part of the body: some
    handlers never look at theirs, one looks only after a check. -/
abbrev Body (G : Type) := Env G → Except Fault Msg → World G → Except Fault (World G × Reply)

/-- A handler: its body, and whether `process_link` goes first. -/
structure Handler (G : Type) where
  linked : Bool
  body : Body G

/-- Handle the request at `index` of the call type `c`.  A rejected link ends the handler
    before its body. -/
def Handler.run (h : Handler G) (c : Call) (env : Env G) (index : ℕ) (msgIn msgOut : VMIMessage)
    (l : LinkState) (w : World G) : Except Fault (LinkState × World G × Reply) :=
  if h.linked then do
    let m ← msgIn.request c index
    match m.link? with
    | none =>
      let (w, r) ← h.body env (.ok m) w
      .ok (l, w, r)
    | some link =>
      match ← processLink c.requestFields m link index msgIn msgOut l with
      -- `batch_error` has been called: no reply, and the guest is not touched
      | (l, .rejected n) => .ok (l, w, .fail n)
      | (l, .linked m _) => do
        let (w, r) ← h.body env (.ok m) w
        .ok (l, w, r)
  else do
    let (w, r) ← h.body env (msgIn.request c index) w
    .ok (l, w, r)

/-- The effect of a handler apart from links: its body, on the request that it was given. -/
def Handler.core (h : Handler G) (env : Env G) (access : Except Fault Msg) (w : World G) :
    Except Fault (World G × Reply) :=
  if h.linked then do
    let m ← access
    h.body env (.ok m) w
  else h.body env access w

/-- A body that starts by copying its request: `auto m = msg_in->x(index)`. -/
def reading (body : Env G → Msg → World G → Except Fault (World G × Reply)) : Body G :=
  fun env access w => do
    let m ← access
    body env m w

/-! ### Requests -/

/-- `c_str()` as a C function reads it: the bytes up to the first NUL. -/
def cStr (s : Bytes) : Bytes := s.takeWhile (· ≠ 0)

/-- A C string ends at its first NUL, whatever follows. -/
theorem cStr_append {b : Bytes} (h : 0 ∈ b) (t : Bytes) : cStr (b ++ t) = cStr b := by
  unfold cStr
  induction b with
  | nil => cases h
  | cons x b ih =>
    by_cases hx : x = 0
    · simp [hx]
    · have hmem : 0 ∈ b := (List.mem_cons.mp h).resolve_left fun heq => hx heq.symm
      have hpass : decide (x ≠ 0) = true := by simpa using hx
      rw [List.cons_append, List.takeWhile_cons, List.takeWhile_cons, hpass, ih hmem]

/-- A text without a NUL is copied whole, with what precedes the next NUL. -/
theorem cStr_append_of_not_mem {b : Bytes} (h : 0 ∉ b) (t : Bytes) :
    cStr (b ++ t) = b ++ cStr t := by
  unfold cStr
  rw [List.takeWhile_append_of_pos]
  intro x hx
  have hne : x ≠ 0 := fun heq => h (heq ▸ hx)
  simpa using hne

/-- The address of a request, when all of its fields are set. -/
def location (s : Space) (m : Msg) : Option Location :=
  match s with
  | .pa => (m.u64? .paddr).map .pa
  | .va =>
    match m.i32? .pid, m.u64? .vaddr with
    | some pid, some vaddr => some (.va vaddr pid)
    | _, _ => none
  | .ksym => (m.str? .symbol).map fun s => .ksym (cStr s)

/-- `(uint32_t) m.count()`, when the field is set. -/
def count? (m : Msg) : Option ℕ := (m.i32? .count).map fun c => c.toUInt32.toNat

/-- The range that the bulk reads and writes accept. -/
def countOk (n : ℕ) : Bool := 1 ≤ n && n < 2 ^ 24

/-! ### Replies -/

/-- A reply with nothing but a status. -/
def statusOnly (st : Status) : Msg := Msg.empty.set .status (.i32 st.code)

/-- A reply with a result and a status. -/
def resultWith (v : Val) (st : Status) : Msg := (Msg.empty.set .result v).set .status (.i32 st.code)

/-- What `set_result` stores of a C integer of a given width. -/
def widthResult (w : Width) (v : UInt64) : Val :=
  match w with
  | .w8 => .u32 v.toUInt8.toUInt32
  | .w16 => .u32 v.toUInt16.toUInt32
  | .w32 => .u32 v.toUInt32
  | .w64 => .u64 v

/-- `m.value()` cast to the C integer of a given width, when the field is set. -/
def widthValue? (w : Width) (m : Msg) : Option UInt64 :=
  match w with
  -- the narrow writes declare `value` as an `int32`, which the cast truncates
  | .w8 => (m.i32? .value).map fun v => v.toUInt32.toUInt8.toUInt64
  | .w16 => (m.i32? .value).map fun v => v.toUInt32.toUInt16.toUInt64
  | .w32 => (m.i32? .value).map fun v => v.toUInt32.toUInt64
  | .w64 => (m.i64? .value).map fun v => v.toUInt64

/-! ### Bodies, one for each family -/

/-- `vmi_read_8_pa` and its siblings. -/
def readNumBody (wd : Width) (s : Space) : Body G := reading fun env m w =>
  match location s m with
  | none => .ok (w, .ok (statusOnly .failure))
  | some l =>
    let ((st, res), w) := w.exec env (.readNum wd l)
    .ok (w, .ok (resultWith (widthResult wd (res.getD 0)) st))

/-- `vmi_read_addr_pa` and its siblings. -/
def readAddrBody (s : Space) : Body G := reading fun env m w =>
  match location s m with
  | none => .ok (w, .ok (statusOnly .failure))
  | some l =>
    let ((st, res), w) := w.exec env (.readAddr l)
    .ok (w, .ok (resultWith (.u64 (res.getD 0)) st))

/-- `vmi_read_str_va` and `vmi_read_str_ksym`. -/
def readStrBody (s : Space) : Body G := reading fun env m w =>
  match location s m with
  | none => .ok (w, .ok (statusOnly .failure))
  | some l =>
    let (res, w) := w.exec env (.readStr l)
    match res with
    | some str => .ok (w, .ok (resultWith (.str str) .success))
    | none => .ok (w, .ok (statusOnly .failure))

/-- `vmi_read_str_pa`: the result is set once more after the NULL check. -/
def readStrPaBody : Body G := reading fun env m w =>
  match location .pa m with
  | none => .ok (w, .ok (statusOnly .failure))
  | some l =>
    let (res, w) := w.exec env (.readStr l)
    match res with
    | some str => .ok (w, .ok (resultWith (.str str) .success))
    | none => .error .nullDereference

/-- The buffer of a bulk read: allocated whenever the request has a count, in range or
    not.  Answers the count when it can be used. -/
def allocBuffer (env : Env G) (m : Msg) (w : World G) : Option ℕ × World G :=
  match count? m with
  | none => (none, w)
  | some n =>
    let (allocated, w) := w.exec env (.malloc (.buffer n))
    -- the allocation comes before the check of its range
    (if countOk n && allocated then some n else none, w)

/-- `vmi_read_pa` and `vmi_read_va`. -/
def readBufBody (s : Space) : Body G := reading fun env m w =>
  let (count, w) := allocBuffer env m w
  match location s m, count with
  | some l, some n =>
    let ((st, buf), w) := w.exec env (.readBuf l n)
    .ok (w,
      .ok ((resultWith (.bytes buf.bytes) st).set .bytesRead (.i64 (.ofNat buf.bytes.length))))
  | _, _ => .ok (w, .ok (statusOnly .failure))

/-- `vmi_read_ksym`: the buffer is stored as a C string, without its length. -/
def readKsymBody : Body G := reading fun env m w =>
  let (count, w) := allocBuffer env m w
  match location .ksym m, count with
  | some l, some n =>
    let ((st, buf), w) := w.exec env (.readBuf l n)
    -- without a NUL the copy runs past the buffer
    if 0 ∈ buf.bytes ++ buf.tail then
      .ok (w, .ok (resultWith (.bytes (cStr (buf.bytes ++ buf.tail))) st))
    else .error .bufferOverrun
  | _, _ => .ok (w, .ok (statusOnly .failure))

/-- `vmi_write_8_pa` and its siblings. -/
def writeNumBody (wd : Width) (s : Space) : Body G := reading fun env m w =>
  match location s m, widthValue? wd m with
  | some l, some v =>
    let (st, w) := w.exec env (.writeNum wd l v)
    .ok (w, .ok (statusOnly st))
  | _, _ => .ok (w, .ok (statusOnly .failure))

/-- The buffer of a bulk write, when it has the length that the request announces. -/
def writeBuffer? (m : Msg) : Option (ℕ × Bytes) :=
  match count? m, m.bytes? .buffer with
  | some n, some b => if countOk n && b.length == n then some (n, b) else none
  | _, _ => none

/-- `vmi_write_pa`, `vmi_write_va` and `vmi_write_ksym`. -/
def writeBufBody (s : Space) : Body G := reading fun env m w =>
  match location s m, writeBuffer? m with
  | some l, some (n, b) =>
    let ((st, written), w) := w.exec env (.writeBuf l n b)
    .ok (w, .ok ((Msg.empty.set .bytesWritten (.i64 (written.getD 0).toInt64)).set .status
      (.i32 st.code)))
  | _, _ => .ok (w, .ok (statusOnly .failure))

/-- `vmi_translate_kv2p`, `vmi_translate_uv2p`, `vmi_translate_ksym2v` and `vmi_get_offset`:
    the operation of a request, when all of its fields are set. -/
def translateBody (run : Env G → Msg → World G → Option ((Status × Option UInt64) × World G)) :
    Body G := reading fun env m w =>
  match run env m w with
  | none => .ok (w, .ok (statusOnly .failure))
  | some ((st, res), w) => .ok (w, .ok (resultWith (.u64 (res.getD 0)) st))

/-- `drakvuf_get_constant_rva` and `drakvuf_get_struct_member_rva`: unset names read as
    empty, and the result is stored also when the lookup fails. -/
def lookupBody (run : Env G → Msg → World G → (Bool × Option UInt64) × World G) : Body G :=
  reading fun env m w =>
    let ((found, res), w) := run env m w
    .ok (w,
      .ok ((Msg.empty.set .status (.i32 (if found then Status.success else .failure).code)).set
        .result (.u64 (res.getD 0))))

/-- A C string that must not be NULL. -/
def stringBody (op : Env G → World G → Option Bytes × World G) : Body G := fun env _ w =>
  match op env w with
  | (some s, w) => .ok (w, .ok (resultWith (.str s) .success))
  | (none, _) => .error .nullDereference

/-- A number that is always there. -/
def numberBody (op : Env G → World G → Val × World G) : Body G := fun env _ w =>
  let (v, w) := op env w
  .ok (w, .ok (resultWith v .success))

/-- Not implemented. -/
def notImplementedBody : Body G := fun _ _ w => .ok (w, .fail 1)

/-- An operation that cannot fail. -/
def effectBody (op : ExtOp) : Body G := fun env _ w =>
  .ok ((w.exec env op).2, .ok (statusOnly .success))

/-- `events_active = b`. -/
def eventsBody (b : Bool) : Body G := fun _ _ w =>
  .ok ({ w with eventsActive := b }, .ok (statusOnly .success))

/-! ### The process list -/

/-- The loop over the task list: `cur` is the entry to visit and `next` the entry after it,
    already read.  A read that fails leaves its variable as it was. -/
def processLoop (env : Env G) (head tasksOffset pidOffset nameOffset : UInt64) :
    ℕ → UInt64 → UInt64 → Int32 → List Process → Status → World G →
      Except Fault (List Process × Status × World G)
  -- a list that never comes back to its head keeps the source in its loop
  | 0, _, _, _, _, _, _ => .error .diverged
  | fuel + 1, cur, next, pid, procs, st, w =>
    match st with
    | .failure => .ok (procs, st, w)
    | .success =>
      let current := cur - tasksOffset
      let ((_, pid'), w) := w.exec env (.readNum .w32 (.va (current + pidOffset) 0))
      let pid := (pid'.map fun v => v.toUInt32.toInt32).getD pid
      let (name, w) := w.exec env (.readStr (.va (current + nameOffset) 0))
      match name with
      -- `set_name` is given the pointer without a check
      | none => .error .nullDereference
      | some name =>
        let procs := procs ++ [⟨pid, name, current⟩]
        let cur := next
        let ((st, next'), w) := w.exec env (.readAddr (.va cur 0))
        -- the entry after the last has been read by now, so its status is the one returned
        if cur = head then .ok (procs, st, w)
        else processLoop env head tasksOffset pidOffset nameOffset fuel cur (next'.getD next) pid
          procs st w

/-- The bytes of a C string literal. -/
def literal (s : String) : Bytes := s.toUTF8.toList

def processListBody : Body G := fun env _ w => do
  let ((_, head), w) := w.exec env (.translateKsym2v (literal "init_task"))
  let ((_, tasks), w) := w.exec env (.getOffset (literal "linux_tasks"))
  let ((_, name), w) := w.exec env (.getOffset (literal "linux_name"))
  let ((_, pid), w) := w.exec env (.getOffset (literal "linux_pid"))
  let tasksOffset := tasks.getD 0
  let listHead := head.getD 0 + tasksOffset
  let ((st, next), w) := w.exec env (.readAddr (.va listHead 0))
  let (procs, st, w) ← processLoop env listHead tasksOffset (pid.getD 0) (name.getD 0) env.fuel
    listHead (next.getD 0) 0 [] st w
  let ret := if procs.isEmpty then Msg.empty else Msg.empty.set .process (.processes procs)
  .ok (w, .ok (ret.set .status (.i32 st.code)))

/-! ### Handlers, one for each function of the source -/

def processTranslateKv2p : Handler G := ⟨false, translateBody fun env m w =>
  (m.u64? .vaddr).map fun v => w.exec env (.translateKv2p v)⟩

def processTranslateUv2p : Handler G := ⟨false, translateBody fun env m w =>
  match m.i32? .pid, m.u64? .vaddr with
  | some pid, some v => some (w.exec env (.translateUv2p v pid))
  | _, _ => none⟩

def processTranslateKsym2v : Handler G := ⟨false, translateBody fun env m w =>
  (m.str? .symbol).map fun s => w.exec env (.translateKsym2v (cStr s))⟩

def processGetOffset : Handler G := ⟨false, translateBody fun env m w =>
  (m.str? .symbol).map fun s => w.exec env (.getOffset (cStr s))⟩

def processReadPa : Handler G := ⟨true, readBufBody .pa⟩
def processReadVa : Handler G := ⟨true, readBufBody .va⟩
def processReadKsym : Handler G := ⟨false, readKsymBody⟩
def processRead8Pa : Handler G := ⟨true, readNumBody .w8 .pa⟩
def processRead16Pa : Handler G := ⟨true, readNumBody .w16 .pa⟩
def processRead32Pa : Handler G := ⟨true, readNumBody .w32 .pa⟩
def processRead64Pa : Handler G := ⟨true, readNumBody .w64 .pa⟩
def processReadAddrPa : Handler G := ⟨true, readAddrBody .pa⟩
def processReadStrPa : Handler G := ⟨true, readStrPaBody⟩
def processRead8Va : Handler G := ⟨true, readNumBody .w8 .va⟩
def processRead16Va : Handler G := ⟨true, readNumBody .w16 .va⟩
def processRead32Va : Handler G := ⟨true, readNumBody .w32 .va⟩
def processRead64Va : Handler G := ⟨true, readNumBody .w64 .va⟩
def processReadAddrVa : Handler G := ⟨true, readAddrBody .va⟩
def processReadStrVa : Handler G := ⟨true, readStrBody .va⟩
def processRead8Ksym : Handler G := ⟨false, readNumBody .w8 .ksym⟩
def processRead16Ksym : Handler G := ⟨false, readNumBody .w16 .ksym⟩
def processRead32Ksym : Handler G := ⟨false, readNumBody .w32 .ksym⟩
def processRead64Ksym : Handler G := ⟨false, readNumBody .w64 .ksym⟩
def processReadAddrKsym : Handler G := ⟨false, readAddrBody .ksym⟩
def processReadStrKsym : Handler G := ⟨false, readStrBody .ksym⟩
def processWritePa : Handler G := ⟨true, writeBufBody .pa⟩
def processWriteVa : Handler G := ⟨true, writeBufBody .va⟩
def processWriteKsym : Handler G := ⟨false, writeBufBody .ksym⟩
def processWrite8Pa : Handler G := ⟨true, writeNumBody .w8 .pa⟩
def processWrite16Pa : Handler G := ⟨true, writeNumBody .w16 .pa⟩
def processWrite32Pa : Handler G := ⟨true, writeNumBody .w32 .pa⟩
def processWrite64Pa : Handler G := ⟨true, writeNumBody .w64 .pa⟩
def processWrite8Va : Handler G := ⟨true, writeNumBody .w8 .va⟩
def processWrite16Va : Handler G := ⟨true, writeNumBody .w16 .va⟩
def processWrite32Va : Handler G := ⟨true, writeNumBody .w32 .va⟩
def processWrite64Va : Handler G := ⟨true, writeNumBody .w64 .va⟩
def processWrite8Ksym : Handler G := ⟨false, writeNumBody .w8 .ksym⟩
def processWrite16Ksym : Handler G := ⟨false, writeNumBody .w16 .ksym⟩
def processWrite32Ksym : Handler G := ⟨false, writeNumBody .w32 .ksym⟩
def processWrite64Ksym : Handler G := ⟨false, writeNumBody .w64 .ksym⟩

def processGetName : Handler G := ⟨false, stringBody fun env w => w.exec env .getName⟩
def processGetWinverStr : Handler G := ⟨false, stringBody fun env w => w.exec env .getWinverStr⟩

def processGetVmid : Handler G := ⟨false, numberBody fun env w =>
  let (vmid, w) := w.exec env .getVmid
  (.u32 (UInt64.toUInt32 vmid), w)⟩

def processGetWinver : Handler G := ⟨false, numberBody fun env w =>
  let (winver, w) := w.exec env .getWinver
  (.u32 (Int32.toUInt32 winver), w)⟩

def processGetMemsize : Handler G := ⟨false, numberBody fun env w =>
  let (memsize, w) := w.exec env .getMemsize
  (.u64 memsize, w)⟩

def processGetAccessMode : Handler G := ⟨false, notImplementedBody⟩
def processGetVcpureg : Handler G := ⟨false, notImplementedBody⟩
def processGetOstype : Handler G := ⟨false, notImplementedBody⟩
def processGetPageMode : Handler G := ⟨false, notImplementedBody⟩

def processStatus : Handler G :=
  ⟨false, fun _ _ w => .ok (w, .ok (Msg.empty.set .state (.u64 1)))⟩

def processEventsStart : Handler G := ⟨false, eventsBody true⟩
def processEventsStop : Handler G := ⟨false, eventsBody false⟩
def processResumeVm : Handler G := ⟨false, effectBody .resume⟩
def processPauseVm : Handler G := ⟨false, effectBody .pause⟩

def processLookupSymbol : Handler G := ⟨false, lookupBody fun env m w =>
  w.exec env (.getConstantRva (cStr ((m.str? .symbolName).getD [])))⟩

def processLookupStructure : Handler G := ⟨false, lookupBody fun env m w =>
  w.exec env (.getStructMemberRva (cStr ((m.str? .structureName).getD []))
    (cStr ((m.str? .structureKey).getD [])))⟩

def processProcessList : Handler G := ⟨false, processListBody⟩

/-! ### Links -/

/-- **The request decides.** Without a link, a handler depends on its request and the world
    only, and leaves the link state alone. -/
theorem Handler.run_unlinked (h : Handler G) (c : Call) (env : Env G) (index : ℕ)
    (msgIn msgOut : VMIMessage) (l : LinkState) (w : World G)
    (hl : ∀ m, msgIn.request c index = .ok m → m.link? = none) :
    h.run c env index msgIn msgOut l w =
      (h.core env (msgIn.request c index) w).map fun r => (l, r.1, r.2) := by
  unfold Handler.run Handler.core
  cases hm : msgIn.request c index with
  | error e =>
    cases h.linked with
    | true => rfl
    | false =>
      show _ >>= _ = _
      cases h.body env (.error e) w <;> rfl
  | ok m =>
    have hnone := hl m hm
    cases h.linked with
    | true =>
      show (match m.link? with | none => _ | some link => _) = Except.map _ (h.body env (.ok m) w)
      rw [hnone]
      show _ >>= _ = _
      cases h.body env (.ok m) w <;> rfl
    | false =>
      show _ >>= _ = _
      cases h.body env (.ok m) w <;> rfl

/-- The three ways a handler returns: without a link, with a rejected link (nothing is done)
    and with a link that went into the request. -/
theorem Handler.run_cases {h : Handler G} {c : Call} {env : Env G} {index : ℕ}
    {msgIn msgOut : VMIMessage} {l l' : LinkState} {w w' : World G} {r : Reply}
    (hr : h.run c env index msgIn msgOut l w = .ok (l', w', r)) :
    (l' = l ∧ (h.linked = true → ∃ m, msgIn.request c index = .ok m ∧ m.link? = none) ∧
      h.core env (msgIn.request c index) w = .ok (w', r)) ∨
    ∃ m link, h.linked = true ∧ msgIn.request c index = .ok m ∧ m.link? = some link ∧
      ((∃ n, processLink c.requestFields m link index msgIn msgOut l = .ok (l', .rejected n) ∧
          w' = w ∧ r = .fail n) ∨
       (∃ m' v, processLink c.requestFields m link index msgIn msgOut l = .ok (l', .linked m' v) ∧
          h.body env (.ok m') w = .ok (w', r))) := by
  unfold Handler.run at hr
  by_cases hlinked : h.linked = true
  · rw [if_pos hlinked] at hr
    obtain ⟨m, hm, hr⟩ := bind_eq_ok.mp hr
    cases hlink : m.link? with
    | none =>
      left
      rw [hlink] at hr
      obtain ⟨⟨w₁, r₁⟩, hb, hr⟩ := bind_eq_ok.mp hr
      cases hr
      refine ⟨rfl, fun _ => ⟨m, hm, hlink⟩, ?_⟩
      unfold Handler.core
      rw [if_pos hlinked, hm]
      exact hb
    | some link =>
      right
      refine ⟨m, link, hlinked, hm, hlink, ?_⟩
      rw [hlink] at hr
      obtain ⟨⟨l₁, o⟩, hp, hr⟩ := bind_eq_ok.mp hr
      cases o with
      | rejected n =>
        cases hr
        exact .inl ⟨n, hp, rfl, rfl⟩
      | linked m' v =>
        obtain ⟨⟨w₁, r₁⟩, hb, hr⟩ := bind_eq_ok.mp hr
        cases hr
        exact .inr ⟨m', v, hp, hb⟩
  · left
    rw [if_neg hlinked] at hr
    obtain ⟨⟨w₁, r₁⟩, hb, hr⟩ := bind_eq_ok.mp hr
    cases hr
    refine ⟨rfl, fun h => absurd h hlinked, ?_⟩
    unfold Handler.core
    rw [if_neg hlinked]
    exact hb

/-- The effect of a handler is its body's. -/
theorem Handler.core_body {h : Handler G} {env : Env G} {access : Except Fault Msg}
    {w : World G} {p : World G × Reply} (hcore : h.core env access w = .ok p) :
    ∃ access', h.body env access' w = .ok p := by
  unfold Handler.core at hcore
  split at hcore
  · obtain ⟨m, -, hbody⟩ := bind_eq_ok.mp hcore
    exact ⟨.ok m, hbody⟩
  · exact ⟨access, hcore⟩

/-- What a handler does is what its body does, for some request: a rejected link does nothing. -/
theorem Handler.run_body {h : Handler G} {c : Call} {env : Env G} {index : ℕ}
    {msgIn msgOut : VMIMessage} {l l' : LinkState} {w w' : World G} {r : Reply}
    (hr : h.run c env index msgIn msgOut l w = .ok (l', w', r)) :
    (∃ access, h.body env access w = .ok (w', r)) ∨ ∃ n, w' = w ∧ r = .fail n := by
  rcases Handler.run_cases hr with ⟨-, -, hcore⟩ | ⟨m, link, -, -, -, hrun⟩
  · exact .inl (Handler.core_body hcore)
  · rcases hrun with ⟨n, -, hw, hfail⟩ | ⟨m', v, -, hbody⟩
    · exact .inr ⟨n, hw, hfail⟩
    · exact .inl ⟨.ok m', hbody⟩

/-- A handler that resolves no links is its body. -/
theorem Handler.run_of_not_linked {h : Handler G} (hlinked : h.linked = false) (c : Call)
    (env : Env G) (index : ℕ) (msgIn msgOut : VMIMessage) (l : LinkState) (w : World G) :
    h.run c env index msgIn msgOut l w =
      (h.body env (msgIn.request c index) w).map fun r => (l, r.1, r.2) := by
  unfold Handler.run
  rw [hlinked]
  show _ >>= _ = _
  cases h.body env (msgIn.request c index) w <;> rfl

/-- A rejected link is all that a handler does. -/
theorem Handler.run_rejected {h : Handler G} {c : Call} {env : Env G} {index : ℕ}
    {msgIn msgOut : VMIMessage} {l l' : LinkState} {m : Msg} {link : Linkage} {n : ℕ}
    (hlinked : h.linked = true) (hm : msgIn.request c index = .ok m) (hlink : m.link? = some link)
    (hp : processLink c.requestFields m link index msgIn msgOut l = .ok (l', .rejected n))
    (w : World G) : h.run c env index msgIn msgOut l w = .ok (l', w, .fail n) := by
  unfold Handler.run
  rw [if_pos hlinked, hm]
  show (match m.link? with | none => _ | some link => _) = _
  rw [hlink]
  show processLink _ _ _ _ _ _ _ >>= _ = _
  rw [hp]
  rfl

/-- What the body of a handler gets: its request, with the link, if there is one, worked in. -/
def LinkedRequest (c : Call) (index : ℕ) (msgIn msgOut : VMIMessage) (l : LinkState) (m : Msg)
    (l' : LinkState) (m' : Msg) : Prop :=
  match m.link? with
  | none => l' = l ∧ m' = m
  | some link =>
    ∃ v, processLink c.requestFields m link index msgIn msgOut l = .ok (l', .linked m' v)

/-- A handler that resolves links. -/
theorem Handler.run_linked {h : Handler G} {c : Call} {env : Env G} {index : ℕ}
    {msgIn msgOut : VMIMessage} {l l' : LinkState} {w w' : World G} {m m' : Msg} {r : Reply}
    (hlinked : h.linked = true) (hm : msgIn.request c index = .ok m)
    (hreq : LinkedRequest c index msgIn msgOut l m l' m')
    (hbody : h.body env (.ok m') w = .ok (w', r)) :
    h.run c env index msgIn msgOut l w = .ok (l', w', r) := by
  unfold Handler.run
  unfold LinkedRequest at hreq
  rw [if_pos hlinked, hm]
  show (match m.link? with | none => _ | some link => _) = _
  cases hlink : m.link? with
  | none =>
    rw [hlink] at hreq
    obtain ⟨rfl, rfl⟩ := hreq
    show h.body env (.ok _) w >>= _ = _
    rw [hbody]
    rfl
  | some link =>
    rw [hlink] at hreq
    obtain ⟨v, hp⟩ := hreq
    show processLink _ _ _ _ _ _ _ >>= _ = _
    rw [hp]
    show h.body env (.ok m') w >>= _ = _
    rw [hbody]
    rfl

/-! ### Completeness -/

/-- A reply without an error number has a sub-message and adds its type. -/
def Reply.Complete (r : Reply) : Prop := r.errorNum = none → r.entry.isSome ∧ r.typed = true

@[simp] theorem Reply.ok_complete (m : Msg) : (Reply.ok m).Complete := fun _ => ⟨rfl, rfl⟩

theorem Reply.complete_of_error {r : Reply} {n : ℕ} (h : r.errorNum = some n) : r.Complete := by
  intro hnone
  rw [h] at hnone
  cases hnone

/-- Whether a body only ever gives complete replies. -/
def Body.Complete (body : Body G) : Prop :=
  ∀ env access w w' r, body env access w = .ok (w', r) → r.Complete

theorem reading_complete {f : Env G → Msg → World G → Except Fault (World G × Reply)}
    (hf : ∀ env m w w' r, f env m w = .ok (w', r) → r.Complete) : (reading f).Complete := by
  intro env access w w' r h
  obtain ⟨m, -, h⟩ := bind_eq_ok.mp h
  exact hf env m w w' r h

/-- A handler with a complete body gives complete replies, also when it rejects a link. -/
theorem Handler.run_complete {h : Handler G} (hb : h.body.Complete) {c : Call} {env : Env G}
    {index : ℕ} {msgIn msgOut : VMIMessage} {l l' : LinkState} {w w' : World G} {r : Reply}
    (hr : h.run c env index msgIn msgOut l w = .ok (l', w', r)) : r.Complete := by
  rcases Handler.run_body hr with ⟨access, hbody⟩ | ⟨n, -, rfl⟩
  · exact hb _ _ _ _ _ hbody
  · exact Reply.complete_of_error rfl

theorem readNumBody_complete (wd : Width) (s : Space) : (readNumBody wd s : Body G).Complete := by
  refine reading_complete fun env m w w' r h => ?_
  split at h <;> cases h <;> exact Reply.ok_complete _

theorem readAddrBody_complete (s : Space) : (readAddrBody s : Body G).Complete := by
  refine reading_complete fun env m w w' r h => ?_
  split at h <;> cases h <;> exact Reply.ok_complete _

theorem readStrBody_complete (s : Space) : (readStrBody s : Body G).Complete := by
  refine reading_complete fun env m w w' r h => ?_
  split at h
  · cases h
    exact Reply.ok_complete _
  · dsimp only at h
    split at h <;> cases h <;> exact Reply.ok_complete _

theorem readStrPaBody_complete : (readStrPaBody : Body G).Complete := by
  refine reading_complete fun env m w w' r h => ?_
  split at h
  · cases h
    exact Reply.ok_complete _
  · dsimp only at h
    split at h <;> cases h
    exact Reply.ok_complete _

theorem readBufBody_complete (s : Space) : (readBufBody s : Body G).Complete := by
  refine reading_complete fun env m w w' r h => ?_
  dsimp only at h
  split at h <;> cases h <;> exact Reply.ok_complete _

theorem readKsymBody_complete : (readKsymBody : Body G).Complete := by
  refine reading_complete fun env m w w' r h => ?_
  dsimp only at h
  split at h
  · split at h <;> cases h
    exact Reply.ok_complete _
  · cases h
    exact Reply.ok_complete _

theorem writeNumBody_complete (wd : Width) (s : Space) :
    (writeNumBody wd s : Body G).Complete := by
  refine reading_complete fun env m w w' r h => ?_
  split at h <;> cases h <;> exact Reply.ok_complete _

theorem writeBufBody_complete (s : Space) : (writeBufBody s : Body G).Complete := by
  refine reading_complete fun env m w w' r h => ?_
  split at h <;> cases h <;> exact Reply.ok_complete _

theorem translateBody_complete
    (run : Env G → Msg → World G → Option ((Status × Option UInt64) × World G)) :
    (translateBody run).Complete := by
  refine reading_complete fun env m w w' r h => ?_
  split at h <;> cases h <;> exact Reply.ok_complete _

theorem lookupBody_complete (run : Env G → Msg → World G → (Bool × Option UInt64) × World G) :
    (lookupBody run).Complete := by
  refine reading_complete fun env m w w' r h => ?_
  cases h
  exact Reply.ok_complete _

theorem stringBody_complete (op : Env G → World G → Option Bytes × World G) :
    (stringBody op).Complete := by
  intro env access w w' r h
  unfold stringBody at h
  split at h <;> cases h
  exact Reply.ok_complete _

theorem numberBody_complete (op : Env G → World G → Val × World G) :
    (numberBody op).Complete := by
  intro env access w w' r h
  cases h
  exact Reply.ok_complete _

theorem notImplementedBody_complete : (notImplementedBody : Body G).Complete := by
  intro env access w w' r h
  cases h
  exact Reply.complete_of_error rfl

theorem effectBody_complete (op : ExtOp) : (effectBody op : Body G).Complete := by
  intro env access w w' r h
  cases h
  exact Reply.ok_complete _

theorem eventsBody_complete (b : Bool) : (eventsBody b : Body G).Complete := by
  intro env access w w' r h
  cases h
  exact Reply.ok_complete _

theorem processListBody_complete : (processListBody : Body G).Complete := by
  intro env access w w' r h
  obtain ⟨⟨procs, st, w₁⟩, -, h⟩ := bind_eq_ok.mp h
  cases h
  exact Reply.ok_complete _

end Furnace.Vmi
