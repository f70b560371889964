import Furnace.Vmi.Exchange
import Furnace.Vmi.Malformed

namespace Furnace.Vmi

open Furnace.Proto Furnace.Lib

/-!
# Failing guest reads

Guest memory can be paged out at any address, so that every read of a handler can fail on its
own.  A handler should then still reply, and say so in its status.

* `readFailed env g ops` — replays the operations `ops` from the guest `g`: whether one of them
  failed.
* `Robust` — a run replies, with a failure status if one of its operations failed, and with
  nothing that was not read if its status is a success.
* `Sturdy` — what the guest must answer for each call; `TasksAnswered` is this for the walk
  through the task list.
* `handler_robust_iff` — **a handler is robust exactly when it is given those answers.**
-/

variable {G : Type}

/-! ### Answers -/

/-- Whether an operation reports a failure: by its status, by a NULL string, or by `false`. -/
def ExtOp.failed : (op : ExtOp) → op.Res → Bool
  | .translateKv2p _, r | .translateUv2p _ _, r | .translateKsym2v _, r => r.1 = .failure
  | .readNum _ _, r | .readAddr _, r | .getOffset _, r => r.1 = .failure
  | .readBuf _ _, r => r.1 = .failure
  | .readStr _, r | .getName, r | .getWinverStr, r => r.isNone
  | .writeNum _ _ _, r => r = .failure
  | .writeBuf _ _ _, r => r.1 = .failure
  | .getConstantRva _, r | .getStructMemberRva _ _, r => !r.1
  | _, _ => false

/-- Whether an operation leaves its out-parameter as it was before. -/
def ExtOp.leftOver : (op : ExtOp) → op.Res → Bool
  | .translateKv2p _, r | .translateUv2p _ _, r | .translateKsym2v _, r => r.2.isNone
  | .readNum _ _, r | .readAddr _, r | .getOffset _, r => r.2.isNone
  | .writeBuf _ _ _, r => r.2.isNone
  | .getConstantRva _, r | .getStructMemberRva _ _, r => r.2.isNone
  | _, _ => false

/-- LibVMI and DRAKVUF set the out-parameter of an operation that they report as a success. -/
def Env.Answers (env : Env G) : Prop :=
  ∀ (op : ExtOp) (g : G), op.leftOver (env.exec op g).1 = true → op.failed (env.exec op g).1 = true

/-- Whether one of the operations `ops`, performed from the guest `g` on, failed. -/
def readFailed (env : Env G) : G → List ExtOp → Bool
  | _, [] => false
  | g, op :: ops => op.failed (env.exec op g).1 || readFailed env (env.exec op g).2 ops

/-- Whether one of them left its out-parameter as it was. -/
def readLeftOver (env : Env G) : G → List ExtOp → Bool
  | _, [] => false
  | g, op :: ops => op.leftOver (env.exec op g).1 || readLeftOver env (env.exec op g).2 ops

/-- What was left as it was has failed. -/
theorem readLeftOver_of_not_failed {env : Env G} (henv : env.Answers) (ops : List ExtOp) (g : G)
    (h : readFailed env g ops = false) : readLeftOver env g ops = false := by
  induction ops generalizing g with
  | nil => rfl
  | cons op ops ih =>
    obtain ⟨hop, hops⟩ := Bool.or_eq_false_iff.mp h
    refine Bool.or_eq_false_iff.mpr ⟨?_, ih _ hops⟩
    cases hleft : op.leftOver (env.exec op g).1 with
    | false => rfl
    | true => rw [henv op g hleft] at hop; cases hop

/-! ### Robust runs -/

/-- A run of a handler from the world `w` is robust: it replies, it reports a failure if one of
    its operations failed, and what it reports as a success was read: no out-parameter was left
    as it was, and whatever lies behind the bytes of a bulk read does not show. -/
def Robust (env : Env G) (w : World G) (run : Env G → Except Fault (World G × Reply)) : Prop :=
  ∃ w' reply e new, run env = .ok (w', ⟨some reply, true, e⟩) ∧ w'.ops = w.ops ++ new ∧
    (readFailed env w.guest new = true → reply.i32? .status = some Status.failure.code) ∧
    (reply.i32? .status = some Status.success.code → readLeftOver env w.guest new = false ∧
      ∀ leftover, ∃ w'', run (env.withLeftover leftover) = .ok (w'', ⟨some reply, true, e⟩))

variable {env : Env G} {w w' : World G}

/-- A run that makes no bulk read: its replies are decided by its status. -/
theorem Robust.of_status (henv : env.Answers)
    {run : Env G → Except Fault (World G × Reply)}
    (hleft : ∀ leftover, run (env.withLeftover leftover) = run env) {reply : Msg} {e : Option ℕ}
    (hrun : run env = .ok (w', ⟨some reply, true, e⟩)) (new : List ExtOp)
    (hops : w'.ops = w.ops ++ new)
    (hst : readFailed env w.guest new = true →
      reply.i32? .status = some Status.failure.code) : Robust env w run := by
  refine ⟨w', reply, e, new, hrun, hops, hst, fun hsuccess => ⟨?_, fun leftover => ?_⟩⟩
  · apply readLeftOver_of_not_failed henv
    cases hfailed : readFailed env w.guest new with
    | false => rfl
    | true =>
      rw [hst hfailed] at hsuccess
      cases hsuccess
  · exact ⟨w', by rw [hleft, hrun]⟩

/-- A run that performs nothing that can fail. -/
theorem Robust.of_quiet (henv : env.Answers)
    {run : Env G → Except Fault (World G × Reply)}
    (hleft : ∀ leftover, run (env.withLeftover leftover) = run env) {reply : Msg} {e : Option ℕ}
    (hrun : run env = .ok (w', ⟨some reply, true, e⟩)) (new : List ExtOp)
    (hops : w'.ops = w.ops ++ new) (hnew : readFailed env w.guest new = false) :
    Robust env w run := by
  apply Robust.of_status henv hleft hrun new hops
  intro hfailed
  rw [hnew] at hfailed
  cases hfailed

/-- A run that returns no reply of its own is not robust. -/
theorem not_robust {run : Env G → Except Fault (World G × Reply)}
    (h : ∀ w' reply e, run env ≠ .ok (w', ⟨some reply, true, e⟩)) : ¬Robust env w run := by
  rintro ⟨w', reply, e, new, hrun, -⟩
  exact h w' reply e hrun

/-- The status of a reply with a result. -/
theorem resultWith_status (v : Val) (st : Status) :
    (resultWith v st).i32? .status = some st.code := by
  simp [resultWith, Msg.i32?]

theorem statusOnly_status (st : Status) : (statusOnly st).i32? .status = some st.code := by
  simp [statusOnly, Msg.i32?]

/-! ### Bodies -/

/-- Whether a body is robust on every request that it is given. -/
def Body.Robust (body : Body G) : Prop :=
  ∀ env, Env.Answers env → ∀ m w, Vmi.Robust env w fun env => body env (.ok m) w

/-- A request that is not complete is answered without an operation. -/
theorem Robust.incomplete (henv : env.Answers) {body : Body G} {m : Msg}
    (hleft : ∀ leftover, body (env.withLeftover leftover) (.ok m) w = body env (.ok m) w)
    (h : body env (.ok m) w = .ok (w, .ok (statusOnly .failure))) :
    Vmi.Robust env w fun env => body env (.ok m) w :=
  .of_quiet henv hleft h [] (List.append_nil _).symm rfl

/-- One operation, whose status is that of the reply. -/
theorem Robust.one (henv : env.Answers) (op : ExtOp) (st : Status) {body : Body G} {m reply : Msg}
    (hleft : ∀ leftover, body (env.withLeftover leftover) (.ok m) w = body env (.ok m) w)
    (h : body env (.ok m) w = .ok ((w.exec env op).2, .ok reply))
    (hreply : reply.i32? .status = some st.code)
    (hst : op.failed (env.exec op w.guest).1 = true → st = .failure) :
    Vmi.Robust env w fun env => body env (.ok m) w := by
  refine .of_status henv hleft h [op] rfl fun hfailed => ?_
  rw [readFailed, readFailed, Bool.or_false] at hfailed
  rw [hreply, hst hfailed]

theorem readNumBody_robust (wd : Width) (s : Space) : (readNumBody wd s : Body G).Robust := by
  intro env henv m w
  cases hl : location s m with
  | none =>
    apply Robust.incomplete henv
    · exact fun _ => rfl
    · simp only [readNumBody, reading, ok_bind, hl]
  | some l =>
    apply Robust.one henv (.readNum wd l) (env.exec (.readNum wd l) w.guest).1.1
    · exact fun _ => rfl
    · simp only [readNumBody, reading, ok_bind, hl]
      rfl
    · exact resultWith_status _ _
    · exact of_decide_eq_true

theorem readAddrBody_robust (s : Space) : (readAddrBody s : Body G).Robust := by
  intro env henv m w
  cases hl : location s m with
  | none =>
    apply Robust.incomplete henv
    · exact fun _ => rfl
    · simp only [readAddrBody, reading, ok_bind, hl]
  | some l =>
    apply Robust.one henv (.readAddr l) (env.exec (.readAddr l) w.guest).1.1
    · exact fun _ => rfl
    · simp only [readAddrBody, reading, ok_bind, hl]
      rfl
    · exact resultWith_status _ _
    · exact of_decide_eq_true

theorem readStrBody_robust (s : Space) : (readStrBody s : Body G).Robust := by
  intro env henv m w
  cases hl : location s m with
  | none =>
    apply Robust.incomplete henv
    · exact fun _ => rfl
    · simp only [readStrBody, reading, ok_bind, hl]
  | some l =>
    cases hstr : (env.exec (.readStr l) w.guest).1 with
    | none =>
      apply Robust.one henv (.readStr l) .failure
      · exact fun _ => rfl
      · simp only [readStrBody, reading, ok_bind, hl, World.exec, hstr]
        rfl
      · exact statusOnly_status _
      · exact fun _ => rfl
    | some str =>
      apply Robust.one henv (.readStr l) .success
      · exact fun _ => rfl
      · simp only [readStrBody, reading, ok_bind, hl, World.exec, hstr]
        rfl
      · exact resultWith_status _ _
      · intro hfailed
        change Option.isNone (env.exec (.readStr l) w.guest).1 = true at hfailed
        rw [hstr] at hfailed
        cases hfailed

theorem writeNumBody_robust (wd : Width) (s : Space) : (writeNumBody wd s : Body G).Robust := by
  intro env henv m w
  cases hl : location s m with
  | none =>
    apply Robust.incomplete henv
    · exact fun _ => rfl
    · simp only [writeNumBody, reading, ok_bind, hl]
  | some l =>
    cases hv : widthValue? wd m with
    | none =>
      apply Robust.incomplete henv
      · exact fun _ => rfl
      · simp only [writeNumBody, reading, ok_bind, hl, hv]
    | some v =>
      apply Robust.one henv (.writeNum wd l v) (env.exec (.writeNum wd l v) w.guest).1
      · exact fun _ => rfl
      · simp only [writeNumBody, reading, ok_bind, hl, hv]
        rfl
      · exact statusOnly_status _
      · exact of_decide_eq_true

theorem writeBufBody_robust (s : Space) : (writeBufBody s : Body G).Robust := by
  intro env henv m w
  cases hl : location s m with
  | none =>
    apply Robust.incomplete henv
    · exact fun _ => rfl
    · simp only [writeBufBody, reading, ok_bind, hl]
  | some l =>
    cases hb : writeBuffer? m with
    | none =>
      apply Robust.incomplete henv
      · exact fun _ => rfl
      · simp only [writeBufBody, reading, ok_bind, hl, hb]
    | some nb =>
      apply Robust.one henv (.writeBuf l nb.1 nb.2) (env.exec (.writeBuf l nb.1 nb.2) w.guest).1.1
      · exact fun _ => rfl
      · simp only [writeBufBody, reading, ok_bind, hl, hb]
        rfl
      · simp [Msg.i32?]
        rfl
      · exact of_decide_eq_true

/-- A buffer is allocated, or nothing is done, and neither can fail. -/
theorem allocBuffer_ops (env : Env G) (m : Msg) (w : World G) :
    ∃ new, (allocBuffer env m w).2.ops = w.ops ++ new ∧ ∀ ops,
      readFailed env w.guest (new ++ ops) = readFailed env (allocBuffer env m w).2.guest ops := by
  unfold allocBuffer
  cases count? m with
  | none => exact ⟨[], (List.append_nil _).symm, fun _ => rfl⟩
  | some n => exact ⟨[.malloc (.buffer n)], rfl, fun _ => rfl⟩

/-- A bulk read of a request that is not complete. -/
theorem Robust.incomplete_bulk (henv : env.Answers) {body : Body G} {m : Msg}
    (hleft : ∀ leftover, body (env.withLeftover leftover) (.ok m) w = body env (.ok m) w)
    (h : body env (.ok m) w = .ok ((allocBuffer env m w).2, .ok (statusOnly .failure))) :
    Vmi.Robust env w fun env => body env (.ok m) w := by
  obtain ⟨new, hops, hnew⟩ := allocBuffer_ops env m w
  refine .of_quiet henv hleft h new hops ?_
  rw [← List.append_nil new, hnew]
  rfl

theorem readBufBody_robust (s : Space) : (readBufBody s : Body G).Robust := by
  intro env henv m w
  have hleft : ∀ leftover, readBufBody s (env.withLeftover leftover) (.ok m) w =
      readBufBody s env (.ok m) w := fun _ => rfl
  cases hl : location s m with
  | none =>
    apply Robust.incomplete_bulk henv hleft
    simp only [readBufBody, reading, ok_bind, hl]
  | some l =>
    cases hn : (allocBuffer env m w).1 with
    | none =>
      apply Robust.incomplete_bulk henv hleft
      simp only [readBufBody, reading, ok_bind, hl, hn]
    | some n =>
      obtain ⟨new, hops, hnew⟩ := allocBuffer_ops env m w
      obtain ⟨⟨⟨st, buf⟩, g⟩, hread⟩ :
          ∃ p, env.exec (.readBuf l n) (allocBuffer env m w).2.guest = p := ⟨_, rfl⟩
      have hrun : readBufBody s env (.ok m) w =
          .ok (((allocBuffer env m w).2.exec env (.readBuf l n)).2,
            .ok ((resultWith (.bytes buf.bytes) st).set .bytesRead
              (.i64 (.ofNat buf.bytes.length)))) := by
        simp only [readBufBody, reading, ok_bind, hl, hn, World.exec, hread]
      refine .of_status henv hleft hrun (new ++ [.readBuf l n]) (by simp [hops]) fun hfailed => ?_
      rw [hnew, readFailed, readFailed, Bool.or_false, hread] at hfailed
      have hst : st = .failure := of_decide_eq_true hfailed
      simp [hst, resultWith, Msg.i32?]

/-- What a `READ_KSYM` must answer: its bytes end with a NUL, or it fails and the memory behind
    them has one. -/
def CopyEnds (r : Status × ReadBuffer) : Prop :=
  0 ∈ r.2.bytes ∨ r.1 = .failure ∧ 0 ∈ r.2.tail

/-- `READ_KSYM`, when its buffer has been read. -/
theorem readKsymBody_read {m : Msg} {w v : World G} {l : Location} {n : ℕ} {st : Status}
    {bytes tail : Bytes} (hl : location .ksym m = some l)
    (hn : (allocBuffer env m w).1 = some n)
    (hread : (allocBuffer env m w).2.exec env (.readBuf l n) = ((st, ⟨bytes, tail⟩), v)) :
    readKsymBody env (.ok m) w =
      if 0 ∈ bytes ++ tail then .ok (v, .ok (resultWith (.bytes (cStr (bytes ++ tail))) st))
      else .error .bufferOverrun := by
  simp only [readKsymBody, reading, ok_bind, hl, hn, hread]

theorem readKsymBody_robust_iff (henv : env.Answers) (m : Msg) (w : World G) :
    (Vmi.Robust env w fun env => readKsymBody env (.ok m) w) ↔
      ∀ l n, location .ksym m = some l → (allocBuffer env m w).1 = some n →
        CopyEnds (env.exec (.readBuf l n) (allocBuffer env m w).2.guest).1 := by
  cases hl : location .ksym m with
  | none =>
    refine iff_of_true (Robust.incomplete_bulk henv ?_ ?_) fun l n hl => by cases hl
    · intro leftover
      simp only [readKsymBody, reading, ok_bind, hl]
      rfl
    · simp only [readKsymBody, reading, ok_bind, hl]
  | some l =>
    cases hn : (allocBuffer env m w).1 with
    | none =>
      refine iff_of_true (Robust.incomplete_bulk henv ?_ ?_) fun l n _ hn => by cases hn
      · intro leftover
        have hn' : (allocBuffer (env.withLeftover leftover) m w).1 = none := hn
        simp only [readKsymBody, reading, ok_bind, hl, hn, hn']
        rfl
      · simp only [readKsymBody, reading, ok_bind, hl, hn]
    | some n =>
      obtain ⟨new, hops, hnew⟩ := allocBuffer_ops env m w
      obtain ⟨⟨⟨st, bytes, tail⟩, v⟩, hread⟩ :
          ∃ p, (allocBuffer env m w).2.exec env (.readBuf l n) = p := ⟨_, rfl⟩
      have hres : (env.exec (.readBuf l n) (allocBuffer env m w).2.guest).1 = (st, ⟨bytes, tail⟩) :=
        congrArg Prod.fst hread
      have hv : v.ops = w.ops ++ (new ++ [.readBuf l n]) := by
        have hlast : v = ((allocBuffer env m w).2.exec env (.readBuf l n)).2 :=
          (congrArg Prod.snd hread).symm
        rw [hlast]
        simp [hops]
      have hrun := readKsymBody_read hl hn hread
      have hleft := readKsymBody_withLeftover hl hn hread
      constructor
      · rintro ⟨w', reply, e, new', hok, -, -, hfresh⟩ l' n' hl' hn'
        cases hl'
        cases hn'
        rw [hres]
        by_cases hnul : 0 ∈ bytes
        · exact .inl hnul
        · change readKsymBody env (.ok m) w = _ at hok
          rw [hrun] at hok
          obtain ⟨hmem, hok⟩ := ite_error_eq_ok.mp hok
          refine .inr ⟨?_, (List.mem_append.mp hmem).resolve_left hnul⟩
          cases st with
          | failure => rfl
          | success =>
            -- in an empty heap the copy does not end
            cases hok
            obtain ⟨w'', hempty⟩ := (hfresh (resultWith_status _ _)).2 fun _ => []
            change readKsymBody _ (.ok m) w = _ at hempty
            rw [hleft, if_neg (by simpa using hnul)] at hempty
            cases hempty
      · intro h
        rcases h l n rfl rfl with hnul | ⟨hst, htail⟩
        · rw [hres] at hnul
          have hcut : ∀ t, cStr (bytes ++ t) = cStr bytes := cStr_append hnul
          rw [if_pos (List.mem_append_left _ hnul), hcut] at hrun
          refine .of_status henv ?_ hrun (new ++ [.readBuf l n]) hv fun hfailed => ?_
          · intro leftover
            show readKsymBody _ (.ok m) w = readKsymBody env (.ok m) w
            rw [hleft, if_pos (List.mem_append_left _ hnul), hcut, hrun]
          · rw [hnew, readFailed, readFailed, Bool.or_false, hres] at hfailed
            rw [resultWith_status, show st = .failure from of_decide_eq_true hfailed]
        · rw [hres] at hst htail
          rw [if_pos (List.mem_append_right _ htail), show st = .failure from hst] at hrun
          -- a failed read may show what was in the heap
          refine ⟨_, _, _, new ++ [.readBuf l n], hrun, hv,
            fun _ => resultWith_status _ _, fun hsuccess => ?_⟩
          rw [resultWith_status] at hsuccess
          cases hsuccess

/-- `vmi_read_str_pa` is given a string, or its handler does not end. -/
theorem readStrPaBody_robust_iff (henv : env.Answers) (m : Msg) (w : World G) :
    (Vmi.Robust env w fun env => readStrPaBody env (.ok m) w) ↔
      ∀ l, location .pa m = some l → (env.exec (.readStr l) w.guest).1 ≠ none := by
  cases hl : location .pa m with
  | none =>
    refine iff_of_true (Robust.incomplete henv (fun _ => rfl) ?_) fun l hl => by cases hl
    simp only [readStrPaBody, reading, ok_bind, hl]
  | some l =>
    cases hstr : (env.exec (.readStr l) w.guest).1 with
    | none =>
      refine iff_of_false (not_robust fun w' reply e hrun => ?_) fun h => h l rfl hstr
      simp only [readStrPaBody, reading, ok_bind, hl, World.exec, hstr] at hrun
      cases hrun
    | some str =>
      refine iff_of_true ?_ fun l' hl' => ?_
      · apply Robust.one henv (.readStr l) .success
        · exact fun _ => rfl
        · simp only [readStrPaBody, reading, ok_bind, hl, World.exec, hstr]
          rfl
        · exact resultWith_status _ _
        · intro hfailed
          change Option.isNone (env.exec (.readStr l) w.guest).1 = true at hfailed
          rw [hstr] at hfailed
          cases hfailed
      · cases hl'
        rw [hstr]
        exact Option.some_ne_none _

/-- So is a C string of the guest that is not checked. -/
theorem stringBody_robust_iff (henv : env.Answers) {op : Env G → World G → Option Bytes × World G}
    {o : ExtOp} (answer : Env G → G → Option Bytes)
    (hop : ∀ env w, op env w = (answer env w.guest, (w.exec env o).2))
    (hfailed : ∀ env g, o.failed (Env.exec env o g).1 = (answer env g).isNone)
    (hleft : ∀ leftover w, op (env.withLeftover leftover) w = op env w) (m : Msg) (w : World G) :
    (Vmi.Robust env w fun env => stringBody op env (.ok m) w) ↔ answer env w.guest ≠ none := by
  cases hstr : answer env w.guest with
  | none =>
    refine iff_of_false (not_robust fun w' reply e hrun => ?_) fun h => h rfl
    simp only [stringBody, hop, hstr] at hrun
    cases hrun
  | some str =>
    refine iff_of_true ?_ (Option.some_ne_none _)
    apply Robust.one henv o .success
    · intro leftover
      simp only [stringBody, hleft]
    · simp only [stringBody, hop, hstr]
      rfl
    · exact resultWith_status _ _
    · intro h
      rw [hfailed, hstr] at h
      cases h

theorem translateBody_robust {α : Type} (parse : Msg → Option α)
    {run : Env G → Msg → World G → Option ((Status × Option UInt64) × World G)}
    (hnone : ∀ env m w, parse m = none → run env m w = none)
    (hsome : ∀ m a, parse m = some a → ∃ op, ∀ (env : Env G) w, ∃ res,
      run env m w = some (res, (w.exec env op).2) ∧
      (op.failed (env.exec op w.guest).1 = true → res.1 = .failure))
    (hleft : ∀ env leftover m w, run (Env.withLeftover env leftover) m w = run env m w) :
    (translateBody run).Robust := by
  intro env henv m w
  have hbody : ∀ leftover, translateBody run (env.withLeftover leftover) (.ok m) w =
      translateBody run env (.ok m) w := by
    intro leftover
    simp only [translateBody, reading, ok_bind, hleft]
  cases hp : parse m with
  | none =>
    apply Robust.incomplete henv hbody
    simp only [translateBody, reading, ok_bind, hnone env m w hp]
  | some a =>
    obtain ⟨op, hop⟩ := hsome m a hp
    obtain ⟨res, hrun, hfailed⟩ := hop env w
    apply Robust.one henv op res.1 hbody
    · simp only [translateBody, reading, ok_bind, hrun]
      rfl
    · exact resultWith_status _ _
    · exact hfailed

theorem lookupBody_robust {run : Env G → Msg → World G → (Bool × Option UInt64) × World G}
    (hrun : ∀ m, ∃ op, ∀ (env : Env G) w, (run env m w).2 = (w.exec env op).2 ∧
      op.failed (env.exec op w.guest).1 = !(run env m w).1.1)
    (hleft : ∀ env leftover m w, run (Env.withLeftover env leftover) m w = run env m w) :
    (lookupBody run).Robust := by
  intro env henv m w
  obtain ⟨op, hop⟩ := hrun m
  obtain ⟨hw, hfailed⟩ := hop env w
  apply Robust.one henv op (if (run env m w).1.1 then .success else .failure)
  · intro leftover
    simp only [lookupBody, reading, ok_bind, hleft]
  · simp only [lookupBody, reading, ok_bind, hw]
    rfl
  · simp [Msg.i32?]
  · intro h
    rw [hfailed, Bool.not_eq_true'] at h
    rw [h]
    rfl

theorem numberBody_robust {op : Env G → World G → Val × World G} {o : ExtOp}
    (hop : ∀ env w, (op env w).2 = (World.exec w env o).2)
    (ho : ∀ r, o.failed r = false)
    (hleft : ∀ env leftover w, op (Env.withLeftover env leftover) w = op env w) :
    (numberBody op).Robust := by
  intro env henv m w
  apply Robust.one henv o .success
  · intro leftover
    simp only [numberBody, hleft]
  · simp only [numberBody, hop]
    rfl
  · exact resultWith_status _ _
  · intro h
    rw [ho] at h
    cases h

theorem notImplementedBody_not_robust (m : Msg) (w : World G) :
    ¬Vmi.Robust env w fun env => notImplementedBody env (.ok m) w :=
  not_robust fun w' reply e hrun => by cases hrun

theorem effectBody_robust {op : ExtOp} (hop : ∀ r, op.failed r = false)
    (hleft : ∀ (env : Env G) leftover w,
      World.exec w (env.withLeftover leftover) op = w.exec env op) :
    (effectBody op : Body G).Robust := by
  intro env henv m w
  apply Robust.one henv op .success
  · intro leftover
    simp only [effectBody, hleft]
  · rfl
  · exact statusOnly_status _
  · intro h
    rw [hop] at h
    cases h

theorem eventsBody_robust (b : Bool) : (eventsBody b : Body G).Robust :=
  fun _ henv _ _ => .of_quiet henv (fun _ => rfl) rfl [] (List.append_nil _).symm rfl

/-! ### The process list -/

/-- What the guest answers for one entry of its task list: the status of the read of the pid,
    whether there is a name, and the status of the read of the next entry. -/
structure Turn where
  pid : Status
  named : Bool
  next : Status

/-- Whether one of the three reads failed. -/
def Turn.failed (t : Turn) : Bool :=
  decide (t.pid = .failure) || !t.named || decide (t.next = .failure)

/-- The answers of the guest along its task list, from the entry `cur` on, as long as the next
    entry can be read; `none` if the list does not come back to its head. -/
def walkTasks (env : Env G) (head tasksOffset pidOffset nameOffset : UInt64) :
    ℕ → UInt64 → UInt64 → Status → G → Option (List Turn)
  | 0, _, _, _, _ => none
  | fuel + 1, cur, next, st, g =>
    match st with
    | .failure => some []
    | .success =>
      let current := cur - tasksOffset
      let ((pid, _), g) := env.exec (.readNum .w32 (.va (current + pidOffset) 0)) g
      let (name, g) := env.exec (.readStr (.va (current + nameOffset) 0)) g
      let ((st, next'), g) := env.exec (.readAddr (.va next 0)) g
      let turn : Turn := ⟨pid, name.isSome, st⟩
      if next = head then some [turn]
      else (walkTasks env head tasksOffset pidOffset nameOffset fuel next (next'.getD next) st
        g).map (turn :: ·)

/-- The status of the last read of a next entry. -/
def lastStatus : Status → List Turn → Status
  | st, [] => st
  | _, t :: turns => lastStatus t.next turns

/-- What the guest must answer to a walk through its task list: the list comes to an end, every
    entry has a name, and either the last read of a next entry fails or every read succeeds. -/
def TasksAnswered (env : Env G) (g : G) : Prop :=
  let ((st₁, head), g) := env.exec (.translateKsym2v (literal "init_task")) g
  let ((st₂, tasks), g) := env.exec (.getOffset (literal "linux_tasks")) g
  let ((st₃, name), g) := env.exec (.getOffset (literal "linux_name")) g
  let ((st₄, pid), g) := env.exec (.getOffset (literal "linux_pid")) g
  let listHead := head.getD 0 + tasks.getD 0
  let ((st, next), g) := env.exec (.readAddr (.va listHead 0)) g
  ∃ turns, walkTasks env listHead (tasks.getD 0) (pid.getD 0) (name.getD 0) env.fuel listHead
      (next.getD 0) st g = some turns ∧
    (∀ t ∈ turns, t.named = true) ∧
    (lastStatus st turns = .failure ∨
      (∀ s ∈ [st₁, st₂, st₃, st₄, st], s = .success) ∧ turns.any Turn.failed = false)

section Walk

variable {head tasksOffset pidOffset nameOffset : UInt64}

/-- The loop that returns has walked through the list. -/
theorem walkTasks_of_processLoop {fuel : ℕ} {cur next : UInt64} {pid : Int32}
    {procs procs' : List Process} {st st' : Status}
    (h : processLoop env head tasksOffset pidOffset nameOffset fuel cur next pid procs st w =
      .ok (procs', st', w')) :
    ∃ turns new, walkTasks env head tasksOffset pidOffset nameOffset fuel cur next st w.guest =
        some turns ∧ (∀ t ∈ turns, t.named = true) ∧ st' = lastStatus st turns ∧
      w'.ops = w.ops ++ new ∧ readFailed env w.guest new = turns.any Turn.failed := by
  induction fuel generalizing cur next pid procs st w with
  | zero => cases h
  | succ fuel ih =>
    cases st with
    | failure =>
      rw [processLoop] at h
      cases h
      exact ⟨[], [], rfl, by simp, rfl, (List.append_nil _).symm, rfl⟩
    | success =>
      rw [processLoop] at h
      obtain ⟨⟨⟨sp, p⟩, g₁⟩, hpid⟩ : ∃ r, env.exec
          (.readNum .w32 (.va (cur - tasksOffset + pidOffset) 0)) w.guest = r := ⟨_, rfl⟩
      obtain ⟨⟨name, g₂⟩, hname⟩ : ∃ r, env.exec
          (.readStr (.va (cur - tasksOffset + nameOffset) 0)) g₁ = r := ⟨_, rfl⟩
      obtain ⟨⟨⟨sn, next'⟩, g₃⟩, hnext⟩ : ∃ r, env.exec (.readAddr (.va next 0)) g₂ = r :=
        ⟨_, rfl⟩
      simp only [World.exec, hpid, hname, hnext] at h
      rw [walkTasks]
      simp only [hpid, hname, hnext]
      cases name with
      | none => cases h
      | some name =>
        dsimp only at h
        by_cases hhead : next = head
        · rw [if_pos hhead] at h ⊢
          cases h
          refine ⟨[⟨sp, true, st'⟩], [.readNum .w32 (.va (cur - tasksOffset + pidOffset) 0),
            .readStr (.va (cur - tasksOffset + nameOffset) 0), .readAddr (.va next 0)], rfl,
            by simp, rfl, by simp, ?_⟩
          simp [readFailed, ExtOp.failed, hpid, hname, hnext, Turn.failed]
        · rw [if_neg hhead] at h ⊢
          obtain ⟨turns, new, hwalk, hnamed, hst, hops, hfailed⟩ := ih h
          dsimp only at hwalk hops hfailed
          refine ⟨⟨sp, true, sn⟩ :: turns,
            [.readNum .w32 (.va (cur - tasksOffset + pidOffset) 0),
              .readStr (.va (cur - tasksOffset + nameOffset) 0), .readAddr (.va next 0)] ++ new,
            by rw [hwalk]; rfl, ?_, hst, by rw [hops]; simp, ?_⟩
          · exact List.forall_mem_cons.mpr ⟨rfl, hnamed⟩
          · simp [readFailed, ExtOp.failed, hpid, hname, hnext, Turn.failed, hfailed,
              Bool.or_assoc]

/-- A walk through a list of named entries is one that the loop makes. -/
theorem processLoop_of_walkTasks (pid : Int32) (procs : List Process) {fuel : ℕ}
    {cur next : UInt64} {st : Status} {turns : List Turn}
    (hwalk : walkTasks env head tasksOffset pidOffset nameOffset fuel cur next st w.guest =
      some turns) (hnamed : ∀ t ∈ turns, t.named = true) :
    ∃ r, processLoop env head tasksOffset pidOffset nameOffset fuel cur next pid procs st w =
      .ok r := by
  induction fuel generalizing cur next pid procs st w turns with
  | zero => cases hwalk
  | succ fuel ih =>
    cases st with
    | failure =>
      rw [processLoop]
      exact ⟨_, rfl⟩
    | success =>
      rw [walkTasks] at hwalk
      obtain ⟨⟨⟨sp, p⟩, g₁⟩, hpid⟩ : ∃ r, env.exec
          (.readNum .w32 (.va (cur - tasksOffset + pidOffset) 0)) w.guest = r := ⟨_, rfl⟩
      obtain ⟨⟨name, g₂⟩, hname⟩ : ∃ r, env.exec
          (.readStr (.va (cur - tasksOffset + nameOffset) 0)) g₁ = r := ⟨_, rfl⟩
      obtain ⟨⟨⟨sn, next'⟩, g₃⟩, hnext⟩ : ∃ r, env.exec (.readAddr (.va next 0)) g₂ = r :=
        ⟨_, rfl⟩
      simp only [hpid, hname, hnext] at hwalk
      rw [processLoop]
      simp only [World.exec, hpid, hname, hnext]
      by_cases hhead : next = head
      · rw [if_pos hhead] at hwalk
        cases hwalk
        cases name with
        | none => cases hnamed _ (List.mem_singleton_self _)
        | some name =>
          dsimp only
          rw [if_pos hhead]
          exact ⟨_, rfl⟩
      · rw [if_neg hhead] at hwalk
        obtain ⟨turns', hrest, rfl⟩ := Option.map_eq_some_iff.mp hwalk
        obtain ⟨hone, hrestNamed⟩ := List.forall_mem_cons.mp hnamed
        cases name with
        | none => cases hone
        | some name =>
          dsimp only
          rw [if_neg hhead]
          exact ih _ _ hrest hrestNamed

/-- The walk makes no bulk read. -/
theorem processLoop_withLeftover (leftover : ℕ → Bytes) (fuel : ℕ) (cur next : UInt64) (pid : Int32)
    (procs : List Process) (st : Status) (w : World G) :
    processLoop (env.withLeftover leftover) head tasksOffset pidOffset nameOffset fuel cur next pid
      procs st w =
      processLoop env head tasksOffset pidOffset nameOffset fuel cur next pid procs st w := by
  induction fuel generalizing cur next pid procs st w with
  | zero => rfl
  | succ fuel ih =>
    cases st with
    | failure =>
      rw [processLoop, processLoop]
    | success =>
      rw [processLoop, processLoop]
      have hexec : ∀ (w : World G) (op : ExtOp), (∀ l n, op ≠ .readBuf l n) →
          w.exec (env.withLeftover leftover) op = w.exec env op := by
        intro w op hop
        cases op
        case readBuf l n => exact absurd rfl (hop l n)
        all_goals rfl
      simp only [hexec _ (.readNum _ _) (fun _ _ h => by cases h),
        hexec _ (.readStr _) (fun _ _ h => by cases h),
        hexec _ (.readAddr _) (fun _ _ h => by cases h), ih]

end Walk

theorem Status.ne_failure {s : Status} : ¬s = .failure ↔ s = .success := by
  cases s <;> simp

theorem processListBody_robust_iff (henv : env.Answers) (m : Msg) (w : World G) :
    (Vmi.Robust env w fun env => processListBody env (.ok m) w) ↔ TasksAnswered env w.guest := by
  have hleft : ∀ leftover, processListBody (env.withLeftover leftover) (.ok m) w =
      processListBody env (.ok m) w := by
    intro leftover
    simp only [processListBody, processLoop_withLeftover]
    rfl
  -- the answers to the five reads before the walk
  let r₁ := env.exec (.translateKsym2v (literal "init_task")) w.guest
  let r₂ := env.exec (.getOffset (literal "linux_tasks")) r₁.2
  let r₃ := env.exec (.getOffset (literal "linux_name")) r₂.2
  let r₄ := env.exec (.getOffset (literal "linux_pid")) r₃.2
  let listHead := r₁.1.2.getD 0 + r₂.1.2.getD 0
  let r₅ := env.exec (.readAddr (.va listHead 0)) r₄.2
  let five : List ExtOp := [.translateKsym2v (literal "init_task"),
    .getOffset (literal "linux_tasks"), .getOffset (literal "linux_name"),
    .getOffset (literal "linux_pid"), .readAddr (.va listHead 0)]
  let w₅ : World G := { w with guest := r₅.2, ops := w.ops ++ five }
  have hbody : processListBody env (.ok m) w =
      processLoop env listHead (r₂.1.2.getD 0) (r₄.1.2.getD 0) (r₃.1.2.getD 0) env.fuel listHead
        (r₅.1.2.getD 0) 0 [] r₅.1.1 w₅ >>= fun r =>
          .ok (r.2.2, .ok ((if r.1.isEmpty then Msg.empty
            else Msg.empty.set .process (.processes r.1)).set .status (.i32 r.2.1.code))) := by
    have hops : w₅ = { w with guest := r₅.2, ops := w.ops
        ++ [.translateKsym2v (literal "init_task")] ++ [.getOffset (literal "linux_tasks")]
        ++ [.getOffset (literal "linux_name")] ++ [.getOffset (literal "linux_pid")]
        ++ [.readAddr (.va listHead 0)] } := by
      simp [w₅, five]
    rw [hops]
    rfl
  have hfive : ∀ new, readFailed env w.guest (five ++ new) = false ↔
      (∀ s ∈ [r₁.1.1, r₂.1.1, r₃.1.1, r₄.1.1, r₅.1.1], s = .success) ∧
        readFailed env r₅.2 new = false := by
    intro new
    show (decide (r₁.1.1 = .failure) || (decide (r₂.1.1 = .failure) ||
      (decide (r₃.1.1 = .failure) || (decide (r₄.1.1 = .failure) ||
        (decide (r₅.1.1 = .failure) || readFailed env r₅.2 new))))) = false ↔ _
    simp [Status.ne_failure, and_assoc]
  have hcode : ∀ (reply : Msg) (st : Status),
      (reply.set .status (.i32 st.code)).i32? .status = some st.code := by
    intro reply st
    simp [Msg.i32?]
  constructor
  · rintro ⟨w', reply, e, new, hrun, hops, hst, -⟩
    change processListBody env (.ok m) w = _ at hrun
    rw [hbody] at hrun
    obtain ⟨⟨procs, st', w₁⟩, hloop, hrun⟩ := bind_eq_ok.mp hrun
    cases hrun
    obtain ⟨turns, new', hwalk, hnamed, rfl, hops', hfailed⟩ := walkTasks_of_processLoop hloop
    obtain rfl : new = five ++ new' := by
      rw [hops', List.append_assoc] at hops
      exact (List.append_cancel_left hops).symm
    refine ⟨turns, hwalk, hnamed, ?_⟩
    cases hlast : lastStatus r₅.1.1 turns with
    | failure => exact .inl rfl
    | success =>
      rw [hlast, hcode] at hst
      right
      rw [← hfailed]
      apply (hfive new').mp
      cases hany : readFailed env w.guest (five ++ new') with
      | false => rfl
      | true => cases hst hany
  · rintro ⟨turns, hwalk, hnamed, hanswers⟩
    obtain ⟨⟨procs, st', w₁⟩, hloop⟩ :=
      processLoop_of_walkTasks (w := w₅) 0 [] hwalk hnamed
    obtain ⟨turns', new, hwalk', -, rfl, hops, hfailed⟩ := walkTasks_of_processLoop hloop
    obtain rfl : turns' = turns := Option.some.inj (hwalk'.symm.trans hwalk)
    rw [hloop, ok_bind] at hbody
    refine .of_status henv hleft hbody (five ++ new) (by rw [hops, List.append_assoc]) ?_
    intro hany
    rw [hcode]
    rcases hanswers with hlast | ⟨hsuccess, hnone⟩
    · rw [hlast]
    · rw [← hfailed] at hnone
      rw [(hfive new).mpr ⟨hsuccess, hnone⟩] at hany
      cases hany

/-! ### The registry -/

/-- What a registration needs to be answered with an entry: room, memory, and an event of a
    kind that can be registered or of another register. -/
def RegisterAnswered (env : Env G) (m : Msg) (w : World G) : Prop :=
  w.events.entries.length < maxEvents ∧ (env.exec (.malloc .trap) w.guest).1 = true ∧
    (env.exec (.malloc .eventItem) (env.exec (.malloc .trap) w.guest).2).1 = true ∧
    (m.enumOr1 .eventType = fReg ∧ m.enumOr1 .regValue ≠ fCr3 ∨
      supported m = true ∧ w.scratchIdent.isEmpty = false)

/-- The second half of a registration replies when the sender has an identity. -/
theorem addTrapFor_reply (env : Env G) (m : Msg) (kind : TrapKind) (obj : ℕ)
    (hident : w.scratchIdent.isEmpty = false) :
    ∃ w' reply e, addTrapFor env m kind obj w = .ok (w', ⟨some reply, true, e⟩) ∧
      w'.ops = w.ops ++ [.pause, .addTrap ⟨kind, obj⟩, .resume] := by
  unfold addTrapFor ownerOf
  rw [if_neg (by simp [hident]), ok_bind]
  dsimp only [addEvent]
  split
  · exact ⟨_, _, _, rfl, by simp⟩
  · exact ⟨_, _, _, rfl, by simp⟩

theorem addTrapFor_anonymous (env : Env G) (m : Msg) (kind : TrapKind) (obj : ℕ)
    (hident : w.scratchIdent.isEmpty = true) :
    addTrapFor env m kind obj w = .error .bufferOverrun := by
  unfold addTrapFor ownerOf
  rw [if_pos hident]
  rfl

/-- A registration that comes to its trap is robust when the sender has an identity. -/
theorem registerTrap_robust_iff (henv : env.Answers) {m : Msg} {w : World G} {kind : TrapKind}
    (hrun : eventRegisterBody env (.ok m) w = addTrapFor env m kind w.nextAlloc
      { w.allocated env with nextAlloc := w.nextAlloc + 1 }) :
    (Vmi.Robust env w fun env => eventRegisterBody env (.ok m) w) ↔
      w.scratchIdent.isEmpty = false := by
  have hleft : ∀ leftover, eventRegisterBody (env.withLeftover leftover) (.ok m) w =
      eventRegisterBody env (.ok m) w := fun _ => rfl
  let w₂ : World G := { w.allocated env with nextAlloc := w.nextAlloc + 1 }
  cases hident : w.scratchIdent.isEmpty with
  | false =>
    obtain ⟨w', reply, e, hreply, hops⟩ :=
      addTrapFor_reply (w := w₂) env m kind w.nextAlloc hident
    rw [hreply] at hrun
    refine iff_of_true (.of_quiet henv hleft hrun [.malloc .trap, .malloc .eventItem, .pause,
      .addTrap ⟨kind, w.nextAlloc⟩, .resume] ?_ rfl) rfl
    rw [hops]
    simp [w₂, World.allocated]
  | true =>
    refine iff_of_false (not_robust fun w' reply e h => ?_) (by simp)
    change eventRegisterBody env (.ok m) w = _ at h
    rw [hrun, addTrapFor_anonymous env m kind w.nextAlloc (w := w₂) hident] at h
    cases h

theorem eventRegisterBody_robust_iff (henv : env.Answers) (m : Msg) (w : World G) :
    (Vmi.Robust env w fun env => eventRegisterBody env (.ok m) w) ↔ RegisterAnswered env m w := by
  have hleft : ∀ leftover, eventRegisterBody (env.withLeftover leftover) (.ok m) w =
      eventRegisterBody env (.ok m) w := fun _ => rfl
  unfold RegisterAnswered
  by_cases hfull : maxEvents ≤ w.events.entries.length
  · refine iff_of_false (not_robust fun w' reply e h => ?_) fun h => absurd h.1 (by omega)
    change eventRegisterBody env (.ok m) w = _ at h
    unfold eventRegisterBody at h
    rw [if_pos hfull] at h
    cases h
  have hroom : w.events.entries.length < maxEvents := by omega
  cases hmem : (env.exec (.malloc .trap) w.guest).1 &&
      (env.exec (.malloc .eventItem) (env.exec (.malloc .trap) w.guest).2).1 with
  | false =>
    refine iff_of_false (not_robust fun w' reply e h => ?_) fun h => ?_
    · change eventRegisterBody env (.ok m) w = _ at h
      unfold eventRegisterBody at h
      rw [if_neg hfull] at h
      simp only [World.exec, hmem, Bool.not_false, if_true] at h
      cases h
    · rw [h.2.1, h.2.2.1] at hmem
      cases hmem
  | true =>
    obtain ⟨htrap, hei⟩ := Bool.and_eq_true_iff.mp hmem
    let w₂ : World G := { w.allocated env with nextAlloc := w.nextAlloc + 1 }
    have hrun : eventRegisterBody env (.ok m) w =
        if m.enumOr1 .eventType = fReg then
          if m.enumOr1 .regValue = fCr3 then addTrapFor env m .cr3 w.nextAlloc w₂
          else .ok (w₂, .okWithError (statusOnly .failure) 3)
        else if m.enumOr1 .eventType = fInt then
          addTrapFor env m (.breakpoint ((m.u64? .bpAddr).getD 0) ((m.i32? .bpPid).getD 0)
            (cStr ((m.str? .bpName).getD []))) w.nextAlloc w₂
        else .ok ({ w₂ with freed := w₂.freed ++ [w.nextAlloc] }, .fail 4) := by
      unfold eventRegisterBody
      rw [if_neg hfull]
      simp only [World.exec, hmem, Bool.not_true, Bool.false_eq_true, if_false]
      rfl
    have hops : w₂.ops = w.ops ++ [.malloc .trap, .malloc .eventItem] := by
      simp [w₂, World.allocated]
    simp only [hroom, htrap, hei, true_and]
    by_cases hreg : m.enumOr1 .eventType = fReg
    · rw [if_pos hreg] at hrun
      by_cases hcr3 : m.enumOr1 .regValue = fCr3
      · rw [if_pos hcr3] at hrun
        rw [registerTrap_robust_iff henv hrun]
        simp [supported, hreg, hcr3]
      · rw [if_neg hcr3] at hrun
        exact iff_of_true (.of_quiet henv hleft hrun _ hops rfl) (.inl ⟨hreg, hcr3⟩)
    · rw [if_neg hreg] at hrun
      by_cases hint : m.enumOr1 .eventType = fInt
      · rw [if_pos hint] at hrun
        rw [registerTrap_robust_iff henv hrun]
        have hne : fInt ≠ fReg := by decide
        simp [supported, hint, hne]
      · rw [if_neg hint] at hrun
        refine iff_of_false (not_robust fun w' reply e h => ?_) (by simp [supported, hreg, hint])
        change eventRegisterBody env (.ok m) w = _ at h
        rw [hrun] at h
        cases h

theorem eventClearBody_robust : (eventClearBody : Body G).Robust := by
  intro env henv m w
  have hleft : ∀ leftover, eventClearBody (env.withLeftover leftover) (.ok m) w =
      eventClearBody env (.ok m) w := fun _ => rfl
  cases hei : w.events.lookup ((m.u64? .identifier).getD 0).toNat with
  | none =>
    have hrun : eventClearBody env (.ok m) w = .ok (((w.exec env .pause).2.exec env .resume).2,
        .okWithError ((statusOnly .failure).set .identifier
          (.u64 ((m.u64? .identifier).getD 0))) 1) := by
      simp only [eventClearBody, reading, ok_bind, exec_events, hei]
    exact .of_quiet henv hleft hrun [.pause, .resume] (by simp) rfl
  | some ei =>
    have hrun : ∃ w', eventClearBody env (.ok m) w = .ok (w', .ok ((statusOnly .success).set
        .identifier (.u64 ((m.u64? .identifier).getD 0)))) ∧
        w'.ops = w.ops ++ [.pause, .removeTrap ei.event, .resume] := by
      simp only [eventClearBody, reading, ok_bind, exec_events, hei]
      exact ⟨_, rfl, by simp⟩
    obtain ⟨w', hrun, hops⟩ := hrun
    exact .of_quiet henv hleft hrun _ hops rfl

/-- What `start_syscall` needs, unless the plugin is running already: memory, a constructor
    that does not throw, and a sender with an identity. -/
def StartAnswered (env : Env G) (w : World G) : Prop :=
  w.syscallPluginOwner = none → (env.exec (.malloc .eventItem) w.guest).1 = true ∧
    (env.exec .newSyscalls (env.exec .pause
      (env.exec (.malloc .eventItem) w.guest).2).2).1 = true ∧ w.scratchIdent.isEmpty = false

theorem startSyscallBody_robust_iff (henv : env.Answers) (m : Msg) (w : World G) :
    (Vmi.Robust env w fun env => startSyscallBody env (.ok m) w) ↔ StartAnswered env w := by
  have hleft : ∀ leftover, startSyscallBody (env.withLeftover leftover) (.ok m) w =
      startSyscallBody env (.ok m) w := fun _ => rfl
  unfold StartAnswered
  cases howner : w.syscallPluginOwner with
  | some owner =>
    have hrun : startSyscallBody env (.ok m) w =
        .ok (w, .okWithError ((statusOnly .failure).set .identifier (.u64 0)) 2) := by
      simp only [startSyscallBody, howner]
    exact iff_of_true (.of_quiet henv hleft hrun [] (List.append_nil _).symm rfl)
      fun h => by cases h
  | none =>
    cases hmem : (env.exec (.malloc .eventItem) w.guest).1 with
    | false =>
      refine iff_of_false (not_robust fun w' reply e h => ?_) fun h => ?_
      · simp only [startSyscallBody, howner, World.exec, hmem, Bool.not_false, if_true] at h
        cases h
      · cases (h rfl).1
    | true =>
      cases hnew : (env.exec .newSyscalls (env.exec .pause
          (env.exec (.malloc .eventItem) w.guest).2).2).1 with
      | false =>
        refine iff_of_false (not_robust fun w' reply e h => ?_) fun h => ?_
        · simp only [startSyscallBody, howner, World.exec, hmem, hnew, Bool.not_true,
            Bool.false_eq_true, if_false, ok_bind] at h
          cases h
        · cases (h rfl).2.1
      | true =>
        cases hident : w.scratchIdent.isEmpty with
        | true =>
          refine iff_of_false (not_robust fun w' reply e h => ?_) fun h => ?_
          · simp only [startSyscallBody, howner, World.exec, hmem, hnew, Bool.not_true,
              Bool.false_eq_true, if_false, if_true, ok_bind, ownerOf, hident] at h
            cases h
          · cases (h rfl).2.2
        | false =>
          have hrun : ∃ w' reply, startSyscallBody env (.ok m) w = .ok (w', .ok reply) ∧
              w'.ops = w.ops ++ [.malloc .eventItem, .pause, .newSyscalls, .resume] := by
            simp only [startSyscallBody, howner, World.exec, hmem, hnew, Bool.not_true,
              Bool.false_eq_true, if_false, if_true, ok_bind, ownerOf, hident]
            exact ⟨_, _, rfl, by simp⟩
          obtain ⟨w', reply, hrun, hops⟩ := hrun
          exact iff_of_true (.of_quiet henv hleft hrun _ hops rfl) fun _ => ⟨rfl, rfl, rfl⟩

theorem stopSyscallBody_robust_iff (henv : env.Answers) (m : Msg) (w : World G) :
    (Vmi.Robust env w fun env => stopSyscallBody env (.ok m) w) ↔
      (w.syscallPluginOwner ≠ none → w.syscallPluginEventId ∈ w.events) := by
  have hleft : ∀ leftover, stopSyscallBody (env.withLeftover leftover) (.ok m) w =
      stopSyscallBody env (.ok m) w := fun _ => rfl
  cases howner : w.syscallPluginOwner with
  | none =>
    have hrun : stopSyscallBody env (.ok m) w =
        .ok (w, .okWithError (statusOnly .failure) 1) := by
      simp only [stopSyscallBody, howner]
    exact iff_of_true (.of_quiet henv hleft hrun [] (List.append_nil _).symm rfl)
      fun h => absurd rfl h
  | some owner =>
    by_cases hid : w.syscallPluginEventId ∈ w.events
    · have hrun : ∃ w', stopSyscallBody env (.ok m) w = .ok (w', .ok (statusOnly .success)) ∧
          w'.ops = w.ops ++ [.pause, .deleteSyscalls, .resume] := by
        simp only [stopSyscallBody, howner]
        rw [if_neg (not_not.mpr hid)]
        exact ⟨_, rfl, by simp⟩
      obtain ⟨w', hrun, hops⟩ := hrun
      exact iff_of_true (.of_quiet henv hleft hrun _ hops rfl) fun _ => hid
    · refine iff_of_false (not_robust fun w' reply e h => ?_) fun h => ?_
      · change stopSyscallBody env (.ok m) w = _ at h
        simp only [stopSyscallBody, howner] at h
        rw [if_pos hid] at h
        cases h
      · exact hid (h (Option.some_ne_none _))

/-! ### Calls -/

/-- **The condition.** What the guest must answer, and the registry must hold, for the handler of
    a call to be robust on the request `m`.  Every call that is not named always is. -/
def Sturdy (c : Call) (env : Env G) (m : Msg) (w : World G) : Prop :=
  match c with
  | .readStr .pa => ∀ l, location .pa m = some l → (env.exec (.readStr l) w.guest).1 ≠ none
  | .readBuf .ksym => ∀ l n, location .ksym m = some l → (allocBuffer env m w).1 = some n →
      CopyEnds (env.exec (.readBuf l n) (allocBuffer env m w).2.guest).1
  | .getName => (env.exec .getName w.guest).1 ≠ none
  | .getWinverStr => (env.exec .getWinverStr w.guest).1 ≠ none
  | .processList => TasksAnswered env w.guest
  | .eventRegister => RegisterAnswered env m w
  | .startSyscall => StartAnswered env w
  | .stopSyscall => w.syscallPluginOwner ≠ none → w.syscallPluginEventId ∈ w.events
  -- these set the error flag and add no reply
  | .getAccessMode | .getVcpureg | .getOstype | .getPageMode => False
  | _ => True

theorem handlerOf_robust_iff (henv : env.Answers) (c : Call) (m : Msg) (w : World G) :
    (Robust env w fun env => (handlerOf c).body env (.ok m) w) ↔ Sturdy c env m w := by
  have always : ∀ {body : Body G}, body.Robust →
      ((Robust env w fun env => body env (.ok m) w) ↔ True) :=
    fun hbody => iff_of_true (hbody env henv m w) trivial
  cases c
  case readNum wd s => cases wd <;> cases s <;> exact always (readNumBody_robust _ _)
  case writeNum wd s => cases wd <;> cases s <;> exact always (writeNumBody_robust _ _)
  case readAddr s => cases s <;> exact always (readAddrBody_robust _)
  case writeBuf s => cases s <;> exact always (writeBufBody_robust _)
  case readBuf s =>
    cases s
    · exact always (readBufBody_robust _)
    · exact always (readBufBody_robust _)
    · exact readKsymBody_robust_iff henv m w
  case readStr s =>
    cases s
    · exact readStrPaBody_robust_iff henv m w
    · exact always (readStrBody_robust _)
    · exact always (readStrBody_robust _)
  -- the operation of a translation is there when all its fields are set
  case translateKv2p =>
    apply always
    apply translateBody_robust fun m => m.u64? .vaddr
    · intro env m w hnone
      rw [hnone]
      rfl
    · intro m v hv
      rw [hv]
      exact ⟨_, fun env w => ⟨_, rfl, of_decide_eq_true⟩⟩
    · intro env leftover m w
      rfl
  case translateKsym2v | getOffset =>
    apply always
    apply translateBody_robust fun m => m.str? .symbol
    · intro env m w hnone
      rw [hnone]
      rfl
    · intro m s hs
      rw [hs]
      exact ⟨_, fun env w => ⟨_, rfl, of_decide_eq_true⟩⟩
    · intro env leftover m w
      rfl
  case translateUv2p =>
    apply always
    apply translateBody_robust (location .va)
    · intro env m w hnone
      unfold location at hnone
      dsimp only at hnone ⊢
      split at hnone
      · cases hnone
      · rfl
    · intro m a ha
      unfold location at ha
      dsimp only at ha
      split at ha
      · rename_i pid v hpid hv
        exact ⟨.translateUv2p v pid, fun env w => ⟨_, rfl, of_decide_eq_true⟩⟩
      · cases ha
    · intro env leftover m w
      rfl
  case lookupSymbol | lookupStructure =>
    dsimp only [handlerOf, processLookupSymbol, processLookupStructure]
    apply always
    apply lookupBody_robust
    · intro m
      exact ⟨_, fun env w => ⟨rfl, rfl⟩⟩
    · intro env leftover m w
      rfl
  case processList => exact processListBody_robust_iff henv m w
  case eventRegister => exact eventRegisterBody_robust_iff henv m w
  case startSyscall => exact startSyscallBody_robust_iff henv m w
  case stopSyscall => exact stopSyscallBody_robust_iff henv m w
  case eventClear => exact always eventClearBody_robust
  case eventsStart | eventsStop => exact always (eventsBody_robust _)
  case resumeVm | pauseVm => exact always (effectBody_robust (fun _ => rfl) fun _ _ _ => rfl)
  case getAccessMode | getVcpureg | getOstype | getPageMode =>
    exact iff_of_false (notImplementedBody_not_robust m w) id
  case status =>
    exact iff_of_true (.of_quiet henv (fun _ => rfl) rfl [] (List.append_nil _).symm rfl) trivial
  case getName =>
    exact stringBody_robust_iff henv (fun env g => (env.exec .getName g).1)
      (fun _ _ => rfl) (fun _ _ => rfl) (fun _ _ => rfl) m w
  case getWinverStr =>
    exact stringBody_robust_iff henv (fun env g => (env.exec .getWinverStr g).1)
      (fun _ _ => rfl) (fun _ _ => rfl) (fun _ _ => rfl) m w
  case getVmid | getWinver | getMemsize =>
    dsimp only [handlerOf, processGetVmid, processGetWinver, processGetMemsize]
    apply always
    apply numberBody_robust
    · intro env w
      rfl
    · intro r
      rfl
    · intro env leftover w
      rfl

/-! ### Handlers -/

/-- The request that the body of a handler is given: the one at `index`, after its link has been
    resolved if the handler resolves links. -/
inductive Given (h : Handler G) (c : Call) (index : ℕ) (msgIn msgOut : VMIMessage)
    (l : LinkState) : LinkState → Msg → Prop
  | plain {m : Msg} (hm : msgIn.request c index = .ok m)
      (hlink : h.linked = true → m.link? = none) : Given h c index msgIn msgOut l l m
  | linked {m m' : Msg} {link : Linkage} {v : UInt64} {l' : LinkState} (hlinked : h.linked = true)
      (hm : msgIn.request c index = .ok m) (hlink : m.link? = some link)
      (hp : processLink c.requestFields m link index msgIn msgOut l = .ok (l', .linked m' v)) :
      Given h c index msgIn msgOut l l' m'

/-- A handler is its body, on the request that it is given. -/
theorem Handler.run_given {h : Handler G} {c : Call} {index : ℕ} {msgIn msgOut : VMIMessage}
    {l l' : LinkState} {m : Msg} (hg : Given h c index msgIn msgOut l l' m) (env : Env G)
    (w : World G) :
    (h.run c env index msgIn msgOut l w).map (fun r => r.2) = h.body env (.ok m) w := by
  unfold Handler.run
  cases hg with
  | plain hm hlink =>
    by_cases hlinked : h.linked = true
    · rw [if_pos hlinked, hm, ok_bind]
      dsimp only
      rw [hlink hlinked]
      cases h.body env (.ok m) w <;> rfl
    · rw [if_neg hlinked, hm]
      cases h.body env (.ok m) w <;> rfl
  | linked hlinked hm hlink hp =>
    rw [if_pos hlinked, hm, ok_bind]
    dsimp only
    rw [hlink]
    dsimp only
    rw [hp]
    show Except.map _ (h.body env (.ok m) w >>= _) = _
    cases h.body env (.ok m) w <;> rfl

/-- **Failing reads.** On every request, a handler completes, replies, and reports a failure of
    any of its operations, exactly when the guest gives it the answers that its call needs. -/
theorem handler_robust_iff (henv : env.Answers) {c : Call} {index : ℕ} {msgIn msgOut : VMIMessage}
    {l l' : LinkState} {m : Msg} (hg : Given (handlerOf c : Handler G) c index msgIn msgOut l l' m)
    (w : World G) :
    (Robust env w fun env => ((handlerOf c).run c env index msgIn msgOut l w).map fun r => r.2) ↔
      Sturdy c env m w := by
  have hrun : (fun env => ((handlerOf c : Handler G).run c env index msgIn msgOut l w).map
      fun r => r.2) = fun env => (handlerOf c).body env (.ok m) w := by
    funext env
    exact Handler.run_given hg env w
  rw [hrun]
  exact handlerOf_robust_iff henv c m w

/-- A message that asks for the string at the physical address 0. -/
def stringRequest : VMIMessage :=
  VMIMessage.empty.addCall (.readStr .pa) (Msg.empty.set .paddr (.u64 0))

theorem echoEnv_answers : echoEnv.Answers := by
  intro op g h
  cases op <;> cases h

/-- In a guest that has a string there, the request is answered. -/
theorem handler_robust_readStr :
    Robust echoEnv (World.initial ()) fun env =>
      ((handlerOf (.readStr .pa)).run (.readStr .pa) env 0 stringRequest VMIMessage.empty {}
        (World.initial ())).map fun r => r.2 := by
  refine (handler_robust_iff echoEnv_answers (.plain (request_addCall _ _) fun _ => rfl) _).mpr ?_
  intro l _
  exact Option.some_ne_none _

/-- A guest in which physical memory has no strings, and 32-bit reads fail. -/
def pagedOutEnv : Env Unit where
  exec
    | .readStr (.pa _), g => (none, g)
    | .readNum .w32 _, g => ((.failure, none), g)
    | op, g => echoEnv.exec op g
  fuel := 1

/-- **A failed read shows as a success.** `READ_STR_PA` hands a NULL string to `set_result`, and
    `PROCESS_LIST` lists a process whose pid could not be read, with status 0. -/
theorem handler_robust_fails :
    pagedOutEnv.Answers ∧
    (handlerOf (.readStr .pa)).run (.readStr .pa) pagedOutEnv 0 stringRequest VMIMessage.empty {}
      (World.initial ()) = .error .nullDereference ∧
    (∃ w' reply, (handlerOf .processList).body pagedOutEnv (.ok Msg.empty) (World.initial ()) =
        .ok (w', .ok reply) ∧ readFailed pagedOutEnv () w'.ops = true ∧
      reply.val .process = some (.processes [⟨0, [], 0⟩]) ∧ reply.i32? .status = some 0) ∧
    ¬∀ (c : Call) (index : ℕ) (msgIn msgOut : VMIMessage) (l l' : LinkState) (m : Msg)
      (w : World Unit), Given (handlerOf c : Handler Unit) c index msgIn msgOut l l' m →
      Robust pagedOutEnv w fun env =>
        ((handlerOf c).run c env index msgIn msgOut l w).map fun r => r.2 := by
  have hnull : (handlerOf (.readStr .pa)).run (.readStr .pa) pagedOutEnv 0 stringRequest
      VMIMessage.empty {} (World.initial ()) = .error .nullDereference := rfl
  refine ⟨?_, hnull, ⟨_, _, rfl, rfl, rfl, rfl⟩, fun hall => ?_⟩
  · intro op g h
    cases op
    case readNum wd l => cases wd <;> first | rfl | cases h
    all_goals cases h
  · obtain ⟨w', reply, e, new, hrun, -⟩ := hall (.readStr .pa) 0 stringRequest VMIMessage.empty
      {} {} _ (World.initial ()) (.plain (request_addCall _ _) fun _ => rfl)
    dsimp only at hrun
    rw [hnull] at hrun
    cases hrun

end Furnace.Vmi
