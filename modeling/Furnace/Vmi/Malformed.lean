import Furnace.Vmi.Batch
import Furnace.Vmi.Exchange
import Furnace.Vmi.Frame

namespace Furnace.Vmi

open Furnace.Proto Furnace.Lib

/-!
# Requests without an effect

The answer of the parser is printed and then ignored: bytes that are no message are processed
as the fields that could be decoded.  Whether they have an effect is decided by the checks of
the handlers, entry by entry.

* `Untouched w w'` — no operation but allocations, and the same events.
* `Body.Decides body q` — `q` tells in advance when a body does nothing, and whether it then
  sets the error flag; `quietOf` is this `q` for every call.
* `entryQuiet` / `processSingle_quiet` / `processSingle_of_noOperation` — the same for one entry
  of a message, with its link.
* `malformed_refused_iff` — **bytes are refused without an effect** exactly when the loop comes
  to an entry that is refused and every entry before it is idle.
-/

variable {G : Type}

/-! ### No operation -/

/-- Whether an operation stays in the partition. -/
def ExtOp.isMalloc : ExtOp → Bool
  | .malloc _ => true
  | _ => false

/-- No LibVMI or DRAKVUF operation lies between the two worlds. -/
def NoOperation (w w' : World G) : Prop :=
  ∃ new, w'.ops = w.ops ++ new ∧ ∀ op ∈ new, op.isMalloc = true

/-- No operation, and the same events. -/
def Untouched (w w' : World G) : Prop := NoOperation w w' ∧ w'.events = w.events

variable {env : Env G} {w w' w'' : World G}

theorem Untouched.refl (w : World G) : Untouched w w := ⟨⟨[], by simp, by simp⟩, rfl⟩

theorem Untouched.trans (h : Untouched w w') (h' : Untouched w' w'') : Untouched w w'' := by
  obtain ⟨⟨new, hops, hnew⟩, hev⟩ := h
  obtain ⟨⟨new', hops', hnew'⟩, hev'⟩ := h'
  refine ⟨⟨new ++ new', by rw [hops', hops, List.append_assoc], ?_⟩, hev'.trans hev⟩
  intro op hop
  rcases List.mem_append.mp hop with hold | hlast
  · exact hnew op hold
  · exact hnew' op hlast

theorem Untouched.malloc (env : Env G) (w : World G) (a : Allocation) :
    Untouched w (w.exec env (.malloc a)).2 := by
  refine ⟨⟨[.malloc a], rfl, fun op hop => ?_⟩, rfl⟩
  rw [List.mem_singleton.mp hop]
  rfl

/-- One operation among the new ones is enough. -/
theorem not_noOperation (new : List ExtOp) (hops : w'.ops = w.ops ++ new) {op : ExtOp}
    (hop : op ∈ new) (hmalloc : op.isMalloc = false) : ¬NoOperation w w' := by
  rintro ⟨new', hops', hnew'⟩
  rw [hops] at hops'
  rw [List.append_cancel_left hops'] at hop
  rw [hnew' op hop] at hmalloc
  cases hmalloc

/-- The operation that was performed last. -/
theorem not_noOperation_exec (new : List ExtOp) (hops : w'.ops = w.ops ++ new) {op : ExtOp}
    (hmalloc : op.isMalloc = false) : ¬NoOperation w (w'.exec env op).2 :=
  not_noOperation (new ++ [op]) (by simp [hops]) (by simp) hmalloc

/-- The operation that was performed first. -/
theorem Performs.not_noOperation {op : ExtOp} (h : Performs env (w.exec env op).2 w')
    (hmalloc : op.isMalloc = false) : ¬NoOperation w w' := by
  obtain ⟨g, new, rfl, -⟩ := h.frame
  exact Vmi.not_noOperation (op :: new) (by simp) List.mem_cons_self hmalloc

/-- Nothing that was performed is forgotten. -/
theorem NoOperation.of_trans {new new' : List ExtOp} (h : NoOperation w w'')
    (hops : w'.ops = w.ops ++ new) (hops' : w''.ops = w'.ops ++ new') :
    NoOperation w w' ∧ NoOperation w' w'' := by
  obtain ⟨all, hall, hmalloc⟩ := h
  rw [hops', hops, List.append_assoc] at hall
  obtain rfl := List.append_cancel_left hall
  exact ⟨⟨new, hops, fun op hop => hmalloc op (List.mem_append_left _ hop)⟩,
    ⟨new', hops', fun op hop => hmalloc op (List.mem_append_right _ hop)⟩⟩

/-! ### Bodies -/

/-- What can be said of a body in advance: `some b` when it does nothing, and `b` is whether it
    sets the error flag. -/
abbrev Quiet (G : Type) := Env G → Except Fault Msg → World G → Option Bool

/-- `q` is right about `body`, both when it says something and when it does not. -/
structure Body.Decides (body : Body G) (q : Quiet G) : Prop where
  sound : ∀ env access w b, q env access w = some b →
    ∃ w' r, body env access w = .ok (w', r) ∧ Untouched w w' ∧ r.errorNum.isSome = b
  complete : ∀ env access w w' r, body env access w = .ok (w', r) → NoOperation w w' →
    q env access w = some r.errorNum.isSome

/-- A request that is not complete is answered with a failure status, and no error. -/
def idleUnless (p : Env G → Msg → World G → Bool) : Quiet G := fun env access w =>
  match access with
  | .ok m => if p env m w then none else some false
  | .error _ => none

theorem reading_decides {f : Env G → Msg → World G → Except Fault (World G × Reply)}
    {p : Env G → Msg → World G → Bool}
    (hidle : ∀ env m w, p env m w = false →
      ∃ w' r, f env m w = .ok (w', r) ∧ Untouched w w' ∧ r.errorNum = none)
    (hacts : ∀ env m w w' r, p env m w = true → f env m w = .ok (w', r) → ¬NoOperation w w') :
    (reading f).Decides (idleUnless p) where
  sound env access w b hq := by
    cases access with
    | error e => cases hq
    | ok m =>
      cases hp : p env m w with
      | true => simp [idleUnless, hp] at hq
      | false =>
        obtain ⟨w', r, hf, hw, hr⟩ := hidle env m w hp
        simp only [idleUnless, hp, Bool.false_eq_true, if_false] at hq
        cases hq
        exact ⟨w', r, hf, hw, by rw [hr]; rfl⟩
  complete env access w w' r h hno := by
    cases access with
    | error e => cases h
    | ok m =>
      cases hp : p env m w with
      | true => exact absurd hno (hacts env m w w' r hp h)
      | false =>
        obtain ⟨w₁, r₁, hf, -, hr⟩ := hidle env m w hp
        change f env m w = _ at h
        rw [hf] at h
        cases h
        simp [idleUnless, hp, hr]

/-- A body that always performs an operation. -/
theorem Body.decides_none {body : Body G}
    (hacts : ∀ env access w w' r, body env access w = .ok (w', r) → ¬NoOperation w w') :
    body.Decides fun _ _ _ => none where
  sound _ _ _ _ h := by cases h
  complete env access w w' r h hno := absurd hno (hacts env access w w' r h)

/-- A body that never performs one. -/
theorem Body.decides_some {body : Body G} {b : Bool}
    (hidle : ∀ env access w, ∃ w' r, body env access w = .ok (w', r) ∧ Untouched w w' ∧
      r.errorNum.isSome = b) : body.Decides fun _ _ _ => some b where
  sound env access w b' h := by
    cases h
    exact hidle env access w
  complete env access w w' r h _ := by
    obtain ⟨w₁, r₁, hbody, -, hr⟩ := hidle env access w
    rw [h] at hbody
    cases hbody
    exact congrArg some hr.symm

/-- The usual body: it reads what it needs from the request, and then performs an operation. -/
theorem reading_decides_of_option {α : Type} {f : Env G → Msg → World G →
      Except Fault (World G × Reply)} {parse : Msg → Option α}
    (hnone : ∀ env m w, parse m = none → f env m w = .ok (w, .ok (statusOnly .failure)))
    (hsome : ∀ env m w a w' r, parse m = some a → f env m w = .ok (w', r) →
      ¬NoOperation w w') :
    (reading f).Decides (idleUnless fun _ m _ => (parse m).isSome) := by
  apply reading_decides
  · intro env m w hp
    rw [Option.isSome_eq_false_iff, Option.isNone_iff_eq_none] at hp
    exact ⟨w, _, hnone env m w hp, .refl w, rfl⟩
  · intro env m w w' r hp h
    obtain ⟨a, ha⟩ := Option.isSome_iff_exists.mp hp
    exact hsome env m w a w' r ha h

theorem readNumBody_decides (wd : Width) (s : Space) :
    (readNumBody wd s : Body G).Decides (idleUnless fun _ m _ => (location s m).isSome) := by
  apply reading_decides_of_option
  · intro env m w hl
    rw [hl]
  · intro env m w l w' r hl h
    rw [hl] at h
    cases h
    exact Performs.refl.not_noOperation rfl

theorem readAddrBody_decides (s : Space) :
    (readAddrBody s : Body G).Decides (idleUnless fun _ m _ => (location s m).isSome) := by
  apply reading_decides_of_option
  · intro env m w hl
    rw [hl]
  · intro env m w l w' r hl h
    rw [hl] at h
    cases h
    exact Performs.refl.not_noOperation rfl

theorem readStrBody_decides (s : Space) :
    (readStrBody s : Body G).Decides (idleUnless fun _ m _ => (location s m).isSome) := by
  apply reading_decides_of_option
  · intro env m w hl
    rw [hl]
  · intro env m w l w' r hl h
    rw [hl] at h
    dsimp only at h
    split at h
    · cases h
      exact Performs.refl.not_noOperation rfl
    · cases h
      exact Performs.refl.not_noOperation rfl

theorem readStrPaBody_decides :
    (readStrPaBody : Body G).Decides (idleUnless fun _ m _ => (location .pa m).isSome) := by
  apply reading_decides_of_option
  · intro env m w hl
    rw [hl]
  · intro env m w l w' r hl h
    rw [hl] at h
    dsimp only at h
    split at h
    · cases h
      exact Performs.refl.not_noOperation rfl
    · cases h

/-- The buffer of a bulk read is all that is allocated. -/
theorem allocBuffer_untouched (env : Env G) (m : Msg) (w : World G) :
    Untouched w (allocBuffer env m w).2 := by
  unfold allocBuffer
  split
  · exact .refl w
  · exact .malloc env w _

/-- A bulk read is performed when the request has an address and the buffer was allocated. -/
def readsBuffer (s : Space) (env : Env G) (m : Msg) (w : World G) : Bool :=
  (location s m).isSome && (allocBuffer env m w).1.isSome

/-- What the two bulk reads have in common. -/
theorem bulkRead_decides {s : Space}
    {f : Env G → Msg → World G → Except Fault (World G × Reply)}
    (hidle : ∀ env m w, location s m = none ∨ (allocBuffer env m w).1 = none →
      f env m w = .ok ((allocBuffer env m w).2, .ok (statusOnly .failure)))
    (hread : ∀ env m w l n w' r, location s m = some l → (allocBuffer env m w).1 = some n →
      f env m w = .ok (w', r) → w' = ((allocBuffer env m w).2.exec env (.readBuf l n)).2) :
    (reading f).Decides (idleUnless (readsBuffer s)) := by
  apply reading_decides
  · intro env m w hp
    refine ⟨(allocBuffer env m w).2, _, hidle env m w ?_, allocBuffer_untouched env m w, rfl⟩
    rcases Bool.and_eq_false_iff.mp hp with hl | hn
    · exact .inl (Option.isNone_iff_eq_none.mp (Option.isSome_eq_false_iff.mp hl))
    · exact .inr (Option.isNone_iff_eq_none.mp (Option.isSome_eq_false_iff.mp hn))
  · intro env m w w' r hp h
    obtain ⟨hl, hn⟩ := Bool.and_eq_true_iff.mp hp
    obtain ⟨l, hl⟩ := Option.isSome_iff_exists.mp hl
    obtain ⟨n, hn⟩ := Option.isSome_iff_exists.mp hn
    obtain ⟨⟨new, hops, -⟩, -⟩ := allocBuffer_untouched env m w
    rw [hread env m w l n w' r hl hn h]
    exact not_noOperation_exec new hops rfl

theorem readBufBody_decides (s : Space) :
    (readBufBody s : Body G).Decides (idleUnless (readsBuffer s)) := by
  apply bulkRead_decides
  · intro env m w hp
    dsimp only
    rcases hp with hl | hn
    · rw [hl]
    · rw [hn]
      cases location s m <;> rfl
  · intro env m w l n w' r hl hn h
    dsimp only at h
    rw [hl, hn] at h
    cases h
    rfl

theorem readKsymBody_decides :
    (readKsymBody : Body G).Decides (idleUnless (readsBuffer .ksym)) := by
  apply bulkRead_decides
  · intro env m w hp
    dsimp only
    rcases hp with hl | hn
    · rw [hl]
    · rw [hn]
      cases location .ksym m <;> rfl
  · intro env m w l n w' r hl hn h
    dsimp only at h
    rw [hl, hn] at h
    dsimp only at h
    split at h
    · cases h
      rfl
    · cases h

/-- The address and the value of a write. -/
def writeNum? (wd : Width) (s : Space) (m : Msg) : Option (Location × UInt64) :=
  match location s m, widthValue? wd m with
  | some l, some v => some (l, v)
  | _, _ => none

theorem writeNumBody_decides (wd : Width) (s : Space) :
    (writeNumBody wd s : Body G).Decides (idleUnless fun _ m _ => (writeNum? wd s m).isSome) := by
  apply reading_decides_of_option
  · intro env m w hp
    dsimp only
    cases hl : location s m with
    | none => rfl
    | some l =>
      cases hv : widthValue? wd m with
      | none => rfl
      | some v =>
        rw [writeNum?, hl, hv] at hp
        cases hp
  · intro env m w p w' r hp h
    unfold writeNum? at hp
    split at hp
    · rename_i l v hl hv
      rw [hl, hv] at h
      cases h
      exact Performs.refl.not_noOperation rfl
    · cases hp

/-- The address and the buffer of a bulk write. -/
def writeBuf? (s : Space) (m : Msg) : Option (Location × ℕ × Bytes) :=
  match location s m, writeBuffer? m with
  | some l, some b => some (l, b)
  | _, _ => none

theorem writeBufBody_decides (s : Space) :
    (writeBufBody s : Body G).Decides (idleUnless fun _ m _ => (writeBuf? s m).isSome) := by
  apply reading_decides_of_option
  · intro env m w hp
    dsimp only
    cases hl : location s m with
    | none => rfl
    | some l =>
      cases hb : writeBuffer? m with
      | none => rfl
      | some b =>
        rw [writeBuf?, hl, hb] at hp
        cases hp
  · intro env m w p w' r hp h
    unfold writeBuf? at hp
    split at hp
    · rename_i l b hl hb
      rw [hl, hb] at h
      cases h
      exact Performs.refl.not_noOperation rfl
    · cases hp

theorem translateBody_decides {α : Type} {parse : Msg → Option α}
    {run : Env G → Msg → World G → Option ((Status × Option UInt64) × World G)}
    (hnone : ∀ env m w, parse m = none → run env m w = none)
    (hsome : ∀ env m w a, parse m = some a →
      ∃ res w', run env m w = some (res, w') ∧ ¬NoOperation w w') :
    (translateBody run).Decides (idleUnless fun _ m _ => (parse m).isSome) := by
  apply reading_decides_of_option
  · intro env m w hp
    rw [hnone env m w hp]
  · intro env m w a w' r hp h
    obtain ⟨res, w₁, hrun, hacts⟩ := hsome env m w a hp
    rw [hrun] at h
    cases h
    exact hacts

theorem lookupBody_decides {run : Env G → Msg → World G → (Bool × Option UInt64) × World G}
    (hrun : ∀ env m w, ¬NoOperation w (run env m w).2) :
    (lookupBody run).Decides fun _ _ _ => none := by
  apply Body.decides_none
  intro env access w w' r h
  obtain ⟨m, -, h⟩ := bind_eq_ok.mp h
  cases h
  exact hrun env m w

theorem stringBody_decides {op : Env G → World G → Option Bytes × World G}
    (hop : ∀ env w, ¬NoOperation w (op env w).2) : (stringBody op).Decides fun _ _ _ => none := by
  apply Body.decides_none
  intro env access w w' r h
  unfold stringBody at h
  split at h
  · rename_i s w₁ heq
    cases h
    have hacts := hop env w
    rw [heq] at hacts
    exact hacts
  · cases h

theorem numberBody_decides {op : Env G → World G → Val × World G}
    (hop : ∀ env w, ¬NoOperation w (op env w).2) : (numberBody op).Decides fun _ _ _ => none := by
  apply Body.decides_none
  intro env access w w' r h
  cases h
  exact hop env w

theorem notImplementedBody_decides :
    (notImplementedBody : Body G).Decides fun _ _ _ => some true :=
  Body.decides_some fun _ _ w => ⟨w, _, rfl, .refl w, rfl⟩

theorem effectBody_decides {op : ExtOp} (hop : op.isMalloc = false) :
    (effectBody op : Body G).Decides fun _ _ _ => none := by
  apply Body.decides_none
  intro env access w w' r h
  cases h
  exact Performs.refl.not_noOperation hop

theorem eventsBody_decides (b : Bool) :
    (eventsBody b : Body G).Decides fun _ _ _ => some false :=
  Body.decides_some fun _ _ w =>
    ⟨{ w with eventsActive := b }, _, rfl, ⟨⟨[], by simp, by simp⟩, rfl⟩, rfl⟩

theorem processListBody_decides : (processListBody : Body G).Decides fun _ _ _ => none := by
  apply Body.decides_none
  intro env access w w' r h
  obtain ⟨⟨procs, st, w₁⟩, hloop, h⟩ := bind_eq_ok.mp h
  cases h
  -- the head of the list is looked up before anything is checked
  have hwalk := (processLoop_operates hloop).performs
  exact (Performs.trans (.exec (.exec (.exec (.one rfl) rfl) rfl) rfl) hwalk).not_noOperation rfl

/-! ### The registry -/

/-- The two kinds of event that can be registered. -/
def supported (m : Msg) : Bool :=
  m.enumOr1 .eventType = fReg && m.enumOr1 .regValue = fCr3 || m.enumOr1 .eventType = fInt

/-- A registration is refused when the map is full, when there is no memory, or when events of
    its type cannot be registered. -/
def registerQuiet : Quiet G := fun env access w =>
  if maxEvents ≤ w.events.entries.length then some true
  else
    let (trapAllocated, w) := w.exec env (.malloc .trap)
    let (eiAllocated, _) := w.exec env (.malloc .eventItem)
    if !(trapAllocated && eiAllocated) then some true
    else match access with
      | .ok m => if supported m then none else some true
      | .error _ => none

/-- The second half of a registration stops the guest. -/
theorem addTrapFor_acts {m : Msg} {kind : TrapKind} {obj : ℕ} {w₀ : World G} {r : Reply}
    {new : List ExtOp} (hops : w.ops = w₀.ops ++ new)
    (h : addTrapFor env m kind obj w = .ok (w', r)) : ¬NoOperation w₀ w' := by
  unfold addTrapFor at h
  obtain ⟨owner, -, h⟩ := bind_eq_ok.mp h
  dsimp only [addEvent] at h
  split at h
  · cases h
    exact not_noOperation_exec (new ++ [.pause, .addTrap ⟨kind, obj⟩]) (by simp [hops]) rfl
  · cases h
    exact not_noOperation_exec (new ++ [.pause, .addTrap ⟨kind, obj⟩]) (by simp [hops]) rfl

/-- The allocations of a registration. -/
theorem Untouched.mallocs (env : Env G) (w : World G) (n : ℕ) (freed : List ℕ) :
    Untouched w { ((w.exec env (.malloc .trap)).2.exec env (.malloc .eventItem)).2 with
      nextAlloc := n, freed := freed } :=
  ((Untouched.malloc env w .trap).trans (.malloc env _ .eventItem)).trans (.refl _)

theorem eventRegisterBody_decides : (eventRegisterBody : Body G).Decides registerQuiet where
  sound env access w b hq := by
    unfold registerQuiet at hq
    unfold eventRegisterBody
    by_cases hfull : maxEvents ≤ w.events.entries.length
    · rw [if_pos hfull] at hq ⊢
      cases hq
      exact ⟨w, _, rfl, .refl w, rfl⟩
    rw [if_neg hfull] at hq ⊢
    dsimp only at hq ⊢
    split at hq
    · rename_i hnone
      cases hq
      rw [if_pos hnone]
      exact ⟨_, _, rfl, .mallocs env w _ _, rfl⟩
    rename_i hsome
    rw [if_neg hsome]
    cases access with
    | error e => cases hq
    | ok m =>
      dsimp only at hq
      split at hq
      · cases hq
      rename_i hunsupported
      cases hq
      rw [ok_bind]
      simp only [supported, Bool.or_eq_true, Bool.and_eq_true, decide_eq_true_eq, not_or,
        not_and] at hunsupported
      obtain ⟨hreg, hint⟩ := hunsupported
      by_cases htype : m.enumOr1 .eventType = fReg
      · rw [if_pos htype, if_neg (hreg htype)]
        exact ⟨_, _, rfl, .mallocs env w _ _, rfl⟩
      · rw [if_neg htype, if_neg hint]
        exact ⟨_, _, rfl, .mallocs env w _ _, rfl⟩
  complete env access w w' r h hno := by
    unfold eventRegisterBody at h
    unfold registerQuiet
    by_cases hfull : maxEvents ≤ w.events.entries.length
    · rw [if_pos hfull] at h ⊢
      cases h
      rfl
    rw [if_neg hfull] at h ⊢
    dsimp only at h ⊢
    split at h
    · rename_i hnone
      cases h
      rw [if_pos hnone]
      rfl
    rename_i hsome
    rw [if_neg hsome]
    cases access with
    | error e => cases h
    | ok m =>
    rw [ok_bind] at h
    dsimp only
    have hops : ∀ n, ({ ((w.exec env (.malloc .trap)).2.exec env (.malloc .eventItem)).2 with
        nextAlloc := n } : World G).ops = w.ops ++ [.malloc .trap, .malloc .eventItem] := by
      simp
    split at h
    · rename_i htype
      split at h
      · exact absurd hno (addTrapFor_acts (hops _) h)
      · rename_i hreg
        cases h
        have hother : ¬m.enumOr1 .eventType = fInt := by
          rw [htype]
          decide
        rw [if_neg (by simp [supported, hreg, hother])]
        rfl
    · rename_i htype
      split at h
      · exact absurd hno (addTrapFor_acts (hops _) h)
      · rename_i hint
        cases h
        rw [if_neg (by simp [supported, htype, hint])]
        rfl

theorem eventClearBody_decides : (eventClearBody : Body G).Decides fun _ _ _ => none := by
  apply Body.decides_none
  intro env access w w' r h
  obtain ⟨m, -, h⟩ := bind_eq_ok.mp h
  dsimp only at h
  split at h
  · rename_i ei _
    cases h
    exact not_noOperation_exec [.pause, .removeTrap ei.event] (by simp) rfl
  · cases h
    exact not_noOperation_exec [.pause] (by simp) rfl

/-- The syscall plugin is not started when it is running already, or without memory. -/
def startQuiet : Quiet G := fun env _ w =>
  match w.syscallPluginOwner with
  | some _ => some true
  | none => if (w.exec env (.malloc .eventItem)).1 then none else some true

theorem startSyscallBody_decides : (startSyscallBody : Body G).Decides startQuiet where
  sound env access w b hq := by
    unfold startQuiet at hq
    unfold startSyscallBody
    cases howner : w.syscallPluginOwner with
    | some owner =>
      rw [howner] at hq
      cases hq
      exact ⟨w, _, rfl, .refl w, rfl⟩
    | none =>
      rw [howner] at hq
      dsimp only at hq ⊢
      split at hq
      · cases hq
      · rename_i hnone
        cases hq
        rw [Bool.not_eq_true] at hnone
        rw [hnone]
        exact ⟨_, _, rfl, .malloc env w _, rfl⟩
  complete env access w w' r h hno := by
    have hcore : RegistryCall.startSyscall.handler.core env access w = .ok (w', r) := h
    obtain ⟨m, hread⟩ := registry_read hcore
    have hcase : StartCase env m w w' r := startSyscall_cases hread
    unfold startQuiet
    cases hcase with
    | running hrunning =>
      obtain ⟨owner, howner⟩ := Option.ne_none_iff_exists'.mp hrunning
      rw [howner]
      rfl
    | noMemory howner hmalloc =>
      rw [howner]
      dsimp only
      rw [hmalloc]
      rfl
    | started owner howner hmalloc hident hstarted hw =>
      subst hw
      exact absurd hno (not_noOperation_exec [.malloc .eventItem, .pause, .newSyscalls]
        (by simp [World.starting]) rfl)

/-- The syscall plugin cannot be stopped when it is not running. -/
def stopQuiet : Quiet G := fun _ _ w =>
  match w.syscallPluginOwner with
  | some _ => none
  | none => some true

theorem stopSyscallBody_decides : (stopSyscallBody : Body G).Decides stopQuiet where
  sound env access w b hq := by
    unfold stopQuiet at hq
    unfold stopSyscallBody
    cases howner : w.syscallPluginOwner with
    | some owner =>
      rw [howner] at hq
      cases hq
    | none =>
      rw [howner] at hq
      cases hq
      exact ⟨w, _, rfl, .refl w, rfl⟩
  complete env access w w' r h hno := by
    unfold stopSyscallBody at h
    unfold stopQuiet
    cases howner : w.syscallPluginOwner with
    | some owner =>
      rw [howner] at h
      dsimp only at h
      split at h
      · cases h
      · cases h
        exact absurd hno (not_noOperation_exec [.pause, .deleteSyscalls] (by simp) rfl)
    | none =>
      rw [howner] at h
      cases h
      rfl

/-! ### Calls -/

/-- What can be said in advance of each call. -/
def quietOf : Call → Quiet G
  | .readNum _ s | .readAddr s | .readStr s => idleUnless fun _ m _ => (location s m).isSome
  | .readBuf s => idleUnless (readsBuffer s)
  | .writeNum wd s => idleUnless fun _ m _ => (writeNum? wd s m).isSome
  | .writeBuf s => idleUnless fun _ m _ => (writeBuf? s m).isSome
  | .translateKv2p => idleUnless fun _ m _ => (m.u64? .vaddr).isSome
  | .translateUv2p => idleUnless fun _ m _ => (location .va m).isSome
  | .translateKsym2v | .getOffset => idleUnless fun _ m _ => (m.str? .symbol).isSome
  | .getAccessMode | .getVcpureg | .getOstype | .getPageMode => fun _ _ _ => some true
  | .status | .eventsStart | .eventsStop => fun _ _ _ => some false
  | .eventRegister => registerQuiet
  | .startSyscall => startQuiet
  | .stopSyscall => stopQuiet
  -- these always ask LibVMI or DRAKVUF
  | .getName | .getVmid | .getWinver | .getWinverStr | .getMemsize | .lookupSymbol
  | .lookupStructure | .processList | .pauseVm | .resumeVm | .eventClear => fun _ _ _ => none

theorem handlerOf_decides (c : Call) : (handlerOf c : Handler G).body.Decides (quietOf c) := by
  cases c
  case readNum w s => cases w <;> cases s <;> exact readNumBody_decides _ _
  case writeNum w s => cases w <;> cases s <;> exact writeNumBody_decides _ _
  case readAddr s => cases s <;> exact readAddrBody_decides _
  case writeBuf s => cases s <;> exact writeBufBody_decides _
  case readBuf s =>
    cases s
    · exact readBufBody_decides _
    · exact readBufBody_decides _
    · exact readKsymBody_decides
  case readStr s =>
    cases s
    · exact readStrPaBody_decides
    · exact readStrBody_decides _
    · exact readStrBody_decides _
  -- the operation of a translation is there when all its fields are set
  case translateKv2p | translateKsym2v | getOffset =>
    apply translateBody_decides
    · intro env m w hnone
      rw [hnone]
      rfl
    · intro env m w a ha
      rw [ha]
      exact ⟨_, _, rfl, Performs.refl.not_noOperation rfl⟩
  case translateUv2p =>
    apply translateBody_decides
    · intro env m w hnone
      unfold location at hnone
      dsimp only at hnone ⊢
      split at hnone
      · cases hnone
      · rfl
    · intro env m w a ha
      unfold location at ha
      dsimp only at ha
      split at ha
      · exact ⟨_, _, rfl, Performs.refl.not_noOperation rfl⟩
      · cases ha
  case lookupSymbol | lookupStructure =>
    dsimp only [handlerOf, processLookupSymbol, processLookupStructure]
    apply lookupBody_decides
    intro env m w
    exact Performs.refl.not_noOperation rfl
  case getName | getWinverStr =>
    dsimp only [handlerOf, processGetName, processGetWinverStr]
    apply stringBody_decides
    intro env w
    exact Performs.refl.not_noOperation rfl
  case getVmid | getWinver | getMemsize =>
    dsimp only [handlerOf, processGetVmid, processGetWinver, processGetMemsize]
    apply numberBody_decides
    intro env w
    exact Performs.refl.not_noOperation rfl
  case getAccessMode | getVcpureg | getOstype | getPageMode => exact notImplementedBody_decides
  case eventsStart | eventsStop => exact eventsBody_decides _
  case resumeVm | pauseVm =>
    dsimp only [handlerOf, processResumeVm, processPauseVm]
    apply effectBody_decides
    rfl
  case processList => exact processListBody_decides
  case eventRegister => exact eventRegisterBody_decides
  case eventClear => exact eventClearBody_decides
  case startSyscall => exact startSyscallBody_decides
  case stopSyscall => exact stopSyscallBody_decides
  case status => exact Body.decides_some fun _ _ w => ⟨w, _, rfl, .refl w, rfl⟩

/-! ### One entry of a message -/

/-- What can be said in advance of a handler: a rejected link sets the error flag. -/
def Handler.quiet (h : Handler G) (q : Quiet G) (c : Call) (env : Env G) (index : ℕ)
    (msgIn msgOut : VMIMessage) (l : LinkState) (w : World G) : Option Bool :=
  if h.linked then
    match msgIn.request c index with
    | .error _ => none
    | .ok m =>
      match m.link? with
      | none => q env (.ok m) w
      | some link =>
        match processLink c.requestFields m link index msgIn msgOut l with
        | .error _ => none
        | .ok (_, .rejected _) => some true
        | .ok (_, .linked m _) => q env (.ok m) w
  else q env (msgIn.request c index) w

/-- What can be said in advance of an entry of type `t`: an unknown type sets the error flag. -/
def entryQuiet (env : Env G) (t index : ℕ) (msgIn msgOut : VMIMessage) (l : LinkState)
    (w : World G) : Option Bool :=
  match Call.ofNum? t with
  | none => some true
  | some c => (handlerOf c).quiet (quietOf c) c env index msgIn msgOut l w

/-- The error flag after an entry that was said to set it, or not to. -/
def errorAfter (b : Bool) (msgOut : VMIMessage) : Option Bool :=
  if b then some true else msgOut.error

section Entries

variable {t index : ℕ} {msgIn msgOut out : VMIMessage} {l l' : LinkState}

theorem Handler.run_quiet {h : Handler G} {q : Quiet G} (hd : h.body.Decides q) {c : Call}
    {b : Bool} (hq : h.quiet q c env index msgIn msgOut l w = some b) :
    ∃ l' w' r, h.run c env index msgIn msgOut l w = .ok (l', w', r) ∧ Untouched w w' ∧
      r.errorNum.isSome = b := by
  -- the body, on whichever request it is given
  have hbody : ∀ l access, q env access w = some b →
      ∃ l' w' r, ((h.body env access w >>= fun p => .ok (l, p.1, p.2)) :
          Except Fault (LinkState × World G × Reply)) = .ok (l', w', r) ∧ Untouched w w' ∧
        r.errorNum.isSome = b := by
    intro l access hsome
    obtain ⟨w', r, hr, hw, hb⟩ := hd.sound env access w b hsome
    exact ⟨l, w', r, by rw [hr, ok_bind], hw, hb⟩
  unfold Handler.quiet at hq
  unfold Handler.run
  by_cases hlinked : h.linked = true
  · rw [if_pos hlinked] at hq ⊢
    cases hm : msgIn.request c index with
    | error e =>
      rw [hm] at hq
      cases hq
    | ok m =>
      rw [hm] at hq
      rw [ok_bind]
      cases hlink : m.link? with
      | none =>
        simp only [hlink] at hq
        exact hbody l (.ok m) hq
      | some link =>
        simp only [hlink] at hq
        dsimp only
        cases hp : processLink c.requestFields m link index msgIn msgOut l with
        | error e =>
          rw [hp] at hq
          cases hq
        | ok o =>
          rw [hp] at hq
          rw [ok_bind]
          obtain ⟨l₁, o⟩ := o
          cases o with
          | rejected n =>
            cases hq
            exact ⟨l₁, w, .fail n, rfl, .refl w, rfl⟩
          | linked m' v => exact hbody l₁ (.ok m') hq
  · rw [if_neg hlinked] at hq ⊢
    exact hbody l _ hq

theorem Handler.run_of_noOperation {h : Handler G} {q : Quiet G} (hd : h.body.Decides q) {c : Call}
    {r : Reply} (hrun : h.run c env index msgIn msgOut l w = .ok (l', w', r))
    (hno : NoOperation w w') :
    h.quiet q c env index msgIn msgOut l w = some r.errorNum.isSome := by
  have hbody : ∀ l access, ((h.body env access w >>= fun p => .ok (l, p.1, p.2)) :
      Except Fault (LinkState × World G × Reply)) = .ok (l', w', r) →
      q env access w = some r.errorNum.isSome := by
    intro l access hrun
    obtain ⟨⟨w₁, r₁⟩, hb, hrun⟩ := bind_eq_ok.mp hrun
    cases hrun
    exact hd.complete env access w w₁ r₁ hb hno
  unfold Handler.run at hrun
  unfold Handler.quiet
  by_cases hlinked : h.linked = true
  · rw [if_pos hlinked] at hrun ⊢
    obtain ⟨m, hm, hrun⟩ := bind_eq_ok.mp hrun
    rw [hm]
    dsimp only
    cases hlink : m.link? with
    | none =>
      rw [hlink] at hrun
      exact hbody l _ hrun
    | some link =>
      rw [hlink] at hrun
      obtain ⟨⟨l₁, o⟩, hp, hrun⟩ := bind_eq_ok.mp hrun
      dsimp only
      rw [hp]
      cases o with
      | rejected n =>
        cases hrun
        rfl
      | linked m' v => exact hbody l₁ _ hrun
  · rw [if_neg hlinked] at hrun ⊢
    exact hbody l _ hrun

/-- An entry of which something is said does nothing. -/
theorem processSingle_quiet {b : Bool} (hq : entryQuiet env t index msgIn msgOut l w = some b) :
    ∃ l' w' out, processSingle env t index msgIn msgOut l w = .ok (l', w', out) ∧
      Untouched w w' ∧ out.error = errorAfter b msgOut := by
  unfold entryQuiet at hq
  unfold processSingle
  cases hcall : Call.ofNum? t with
  | none =>
    rw [hcall] at hq
    cases hq
    exact ⟨_, _, _, rfl, .refl w, rfl⟩
  | some c =>
    rw [hcall] at hq
    obtain ⟨l', w', r, hrun, hw, hb⟩ := Handler.run_quiet (handlerOf_decides c) hq
    dsimp only
    rw [hrun, ok_bind]
    refine ⟨_, _, _, rfl, hw, ?_⟩
    rw [record_error, hb]
    rfl

/-- An entry that does nothing is one of which something is said. -/
theorem processSingle_of_noOperation
    (h : processSingle env t index msgIn msgOut l w = .ok (l', w', out))
    (hno : NoOperation w w') :
    ∃ b, entryQuiet env t index msgIn msgOut l w = some b ∧ out.error = errorAfter b msgOut := by
  unfold entryQuiet
  cases hcall : Call.ofNum? t with
  | none =>
    unfold processSingle at h
    rw [hcall] at h
    cases h
    exact ⟨true, rfl, rfl⟩
  | some c =>
    obtain rfl := Call.num_of_ofNum? hcall
    obtain ⟨r, hrun, rfl⟩ := processSingle_call h
    exact ⟨r.errorNum.isSome, Handler.run_of_noOperation (handlerOf_decides c) hrun hno,
      record_error _ _ _ _⟩

/-- The operations of a call come after those before it. -/
theorem processSingle_ops (h : processSingle env t index msgIn msgOut l w = .ok (l', w', out)) :
    ∃ new, w'.ops = w.ops ++ new := by
  obtain ⟨new, hops, -⟩ := processSingle_sized h
  exact ⟨new, hops⟩

end Entries

/-! ### Messages -/

/-- The loop comes to entry `k` without an error, and `b` is what is said of it. -/
def EntryIs (env : Env G) (msgIn : VMIMessage) (w₀ : World G) (k : ℕ) (b : Bool) : Prop :=
  ∃ l w out t, Reaches env msgIn w₀ k l w out ∧ out.error = none ∧ msgIn.type[k]? = some t ∧
    entryQuiet env t (countBefore t msgIn.type k) msgIn out l w = some b

/-- **The condition.** The message is not too long, one of its entries is refused, and every
    entry before it is idle. -/
def RefusedFirst (env : Env G) (msgIn : VMIMessage) (w₀ : World G) : Prop :=
  msgIn.type.length ≤ maxTypes ∧
    ∃ k, EntryIs env msgIn w₀ k true ∧ ∀ j < k, EntryIs env msgIn w₀ j false

section Messages

variable {msgIn : VMIMessage} {w₀ : World G} {i : ℕ} {l : LinkState} {out : VMIMessage}

/-- A position behind idle entries. -/
theorem Reaches.untouched (h : Reaches env msgIn w₀ i l w out)
    (hidle : ∀ j < i, EntryIs env msgIn w₀ j false) : Untouched w₀ w := by
  induction h with
  | start => exact .refl w₀
  | @next i t l l' w w' out out' h herr ht hs ih =>
    have hbefore := ih fun j hj => hidle j (by omega)
    obtain ⟨l₁, w₁, out₁, t₁, hreach, -, ht₁, hq⟩ := hidle i (Nat.lt_succ_self i)
    -- the loop comes to the entry in one state only
    obtain ⟨rfl, rfl, rfl⟩ := h.unique hreach
    rw [ht] at ht₁
    cases ht₁
    obtain ⟨l₂, w₂, out₂, hs', hw, -⟩ := processSingle_quiet hq
    rw [hs] at hs'
    cases hs'
    exact hbefore.trans hw

theorem Reaches.ops (h : Reaches env msgIn w₀ i l w out) : ∃ new, w.ops = w₀.ops ++ new := by
  obtain ⟨new, hops, -⟩ := h.sized
  exact ⟨new, hops⟩

/-- The entries that were passed without an operation and without an error were idle. -/
theorem Reaches.idle (h : Reaches env msgIn w₀ i l w out) (hno : NoOperation w₀ w)
    (herr : out.error = none) : ∀ j < i, EntryIs env msgIn w₀ j false := by
  induction h with
  | start => exact fun j hj => absurd hj (Nat.not_lt_zero j)
  | @next i t l l' w w' out out' h herr' ht hs ih =>
    intro j hj
    obtain ⟨new, hops⟩ := h.ops
    obtain ⟨new', hops'⟩ := processSingle_ops hs
    obtain ⟨hbefore, hentry⟩ := hno.of_trans hops hops'
    rcases Nat.lt_succ_iff_lt_or_eq.mp hj with hlt | rfl
    · exact ih hbefore herr' j hlt
    · obtain ⟨b, hq, hflag⟩ := processSingle_of_noOperation hs hentry
      rw [herr] at hflag
      cases b with
      | true => cases hflag
      | false => exact ⟨l, w, out, t, h, herr', ht, hq⟩

/-- Nothing is processed behind an error. -/
theorem processTypes_of_error (h : out.error.isSome) (ts : List ℕ) (typecount : ℕ → Option ℕ)
    (l : LinkState) (w : World G) :
    processTypes env msgIn ts typecount l w out = .ok (l, w, out) := by
  cases ts with
  | nil => rfl
  | cons t ts =>
    rw [processTypes, if_pos h]

/-- **A message is refused without an effect** exactly when an entry is refused before any other
    did something. -/
theorem processProtobuf_refused_iff :
    (∃ w' out, processProtobuf env msgIn w₀ = .ok (w', out) ∧ Untouched w₀ w' ∧
      out.error = some true) ↔ RefusedFirst env msgIn w₀ := by
  constructor
  · rintro ⟨w', out, hrun, ⟨hno, -⟩, herr⟩
    obtain ⟨i, l, hreach, hend⟩ := reaches_of_processProtobuf hrun
    cases hreach with
    | start => cases herr
    | @next k t l l' w _ out₀ _ h herr₀ ht hs =>
      obtain ⟨-, hzero⟩ | ⟨hlen, -⟩ := hend
      · cases hzero
      obtain ⟨new, hops⟩ := h.ops
      obtain ⟨new', hops'⟩ := processSingle_ops hs
      obtain ⟨hbefore, hentry⟩ := hno.of_trans hops hops'
      obtain ⟨b, hq, hflag⟩ := processSingle_of_noOperation hs hentry
      have hb : b = true := by
        cases b with
        | true => rfl
        | false =>
          rw [herr] at hflag
          change some true = out₀.error at hflag
          rw [herr₀] at hflag
          cases hflag
      subst hb
      exact ⟨hlen, k, ⟨l, w, out₀, t, h, herr₀, ht, hq⟩, h.idle hbefore herr₀⟩
  · rintro ⟨hlen, k, ⟨l, w, out, t, h, herr, ht, hq⟩, hidle⟩
    obtain ⟨l', w', out', hs, hw, hflag⟩ := processSingle_quiet hq
    have hsome : out'.error.isSome := by
      rw [hflag]
      rfl
    refine ⟨w', out', ?_, (h.untouched hidle).trans hw, hflag⟩
    unfold processProtobuf
    rw [if_neg (not_lt.mpr hlen), processTypes_of_reaches (.next h herr ht hs),
      processTypes_of_error hsome, ok_bind]

end Messages

/-! ### Bytes -/

/-- The bytes are answered with the error flag, and nothing else is done. -/
def Refused (P : Protobuf) (env : Env G) (leftover : ℕ → Bytes) (raw : Bytes) (M : Members)
    (w : World G) : Prop :=
  ∃ M' w' reply, processBytes P env leftover raw M w = .ok (M', w', reply) ∧
    Untouched w w' ∧ reply = P.serialize M'.msgOut ∧ M'.msgOut.error = some true

/-- **Malformed requests.** Whether the parser accepts the bytes or not, they are refused without
    an effect exactly when the fields that it decoded have an entry that is refused, behind
    idle entries only. -/
theorem malformed_refused_iff (P : Protobuf) (env : Env G) (leftover : ℕ → Bytes) (raw : Bytes)
    (M : Members) (w : World G) :
    Refused P env leftover raw M w ↔
      RefusedFirst (env.withLeftover leftover) (decoded P raw) w := by
  rw [← processProtobuf_refused_iff]
  constructor
  · rintro ⟨M', w', reply, hrun, hw, -, herr⟩
    exact ⟨w', M'.msgOut, (processBytes_msgOut hrun).1, hw, herr⟩
  · rintro ⟨w', out, hrun, hw, herr⟩
    have heq := processBytes_eq P env leftover raw M w
    rw [hrun] at heq
    obtain ⟨⟨M', w₁, reply⟩, hbytes, hpair⟩ := map_eq_ok.mp heq
    cases hpair
    obtain ⟨hrun', hreply⟩ := processBytes_msgOut hbytes
    rw [hrun] at hrun'
    cases hrun'
    exact ⟨M', w', _, hbytes, hw, hreply.symm, herr⟩

/-- `PAUSE_VM`, and then the first byte of a tag whose second byte is missing. -/
def cutRequest : Bytes := [240, 7, 34, 128]

/-- The protobuf runtime on this request and on its reply: the field 35, a `PAUSE_VM_RET` of a
    status, and the type 35. -/
def cutRuntime : Protobuf where
  parse raw :=
    if raw = cutRequest then (false, VMIMessage.empty.addType Call.pauseVm.num)
    else (raw.isEmpty, VMIMessage.empty)
  serialize out :=
    match out.sub 35 with
    | [r] => [154, 2, 2, 8, ((r.i32? .status).getD 0).toUInt32.toUInt8, 240, 7, 35]
    | _ => []

/-- **A cut request is performed.** The parser refuses it, but the guest is paused, and the
    reply reports success. -/
theorem malformed_refused_fails :
    (cutRuntime.parse cutRequest).1 = false ∧
    (∃ M' w', processBytes cutRuntime echoEnv (fun _ => []) cutRequest {} (World.initial ()) =
      .ok (M', w', [154, 2, 2, 8, 0, 240, 7, 35]) ∧ w'.ops = [.pause] ∧ M'.msgOut.error = none) ∧
    ¬∀ raw, (cutRuntime.parse raw).1 = false →
      Refused cutRuntime echoEnv (fun _ => []) raw {} (World.initial ()) := by
  have hrun : ∃ M' w', processBytes cutRuntime echoEnv (fun _ => []) cutRequest {}
      (World.initial ()) = .ok (M', w', [154, 2, 2, 8, 0, 240, 7, 35]) ∧ w'.ops = [.pause] ∧
      M'.msgOut.error = none := ⟨_, _, rfl, rfl, rfl⟩
  refine ⟨rfl, hrun, fun hall => ?_⟩
  obtain ⟨M', w', hbytes, -, hnone⟩ := hrun
  obtain ⟨M₁, w₁, reply, hbytes', -, -, herr⟩ := hall cutRequest rfl
  rw [hbytes] at hbytes'
  cases hbytes'
  rw [hnone] at herr
  cases herr

end Furnace.Vmi
