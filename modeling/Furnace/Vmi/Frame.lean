import Furnace.Vmi.Dispatch

namespace Furnace.Vmi

open Furnace.Proto Furnace.Lib

/-!
# What a call leaves alone

Most handlers only perform operations on the guest: they read the event registry not at all
and change none of its fields.  This is stated once, for every body, and lifted to a call.

* `Performs env w w'` — `w'` is `w` after operations that are not the registry's;
  `Performs.frame` reads the unchanged fields off it.
* `Operates env w w'` — the same, of operations that also write the whole buffer they are
  given.
* `handlerOf_operates` — every handler but those of the registry and of `events_active`.
* `processSingle_effect` — **one call** performs such operations, sets `events_active`, or is a
  registry request.
* `processProtobuf_sized` — **a message** never announces another length than its buffer's.
-/

variable {G : Type}

/-! ### Operations of the guest -/

/-- Whether an operation is one of the event registry: it sets or removes traps, or allocates
    for them. -/
def ExtOp.ofRegistry : ExtOp → Bool
  | .addTrap _ | .removeTrap _ | .newSyscalls | .deleteSyscalls => true
  | .malloc .trap | .malloc .eventItem => true
  | _ => false

/-- `w'` is `w` after some operations that are not of the registry. -/
inductive Performs (env : Env G) (w : World G) : World G → Prop
  | refl : Performs env w w
  | exec {w' : World G} (h : Performs env w w') {op : ExtOp} (hop : op.ofRegistry = false) :
      Performs env w (w'.exec env op).2

variable {env : Env G} {w w' w'' : World G}

theorem Performs.one {op : ExtOp} (hop : op.ofRegistry = false) :
    Performs env w (w.exec env op).2 :=
  .exec .refl hop

theorem Performs.trans (h : Performs env w w') (h' : Performs env w' w'') :
    Performs env w w'' := by
  induction h' with
  | refl => exact h
  | exec _ hop ih => exact .exec ih hop

/-- The guest and the record of operations are all that changes. -/
theorem Performs.frame (h : Performs env w w') :
    ∃ g new, w' = { w with guest := g, ops := w.ops ++ new } ∧
      ∀ op ∈ new, op.ofRegistry = false := by
  induction h with
  | refl => exact ⟨w.guest, [], by simp, by simp⟩
  | @exec w' _ op hop ih =>
    obtain ⟨g, new, rfl, hnew⟩ := ih
    refine ⟨(env.exec op g).2, new ++ [op], by simp [World.exec], ?_⟩
    intro op' hop'
    rcases List.mem_append.mp hop' with hold | hlast
    · exact hnew op' hold
    · rw [List.mem_singleton.mp hlast]
      exact hop

/-- Whether an operation writes the whole buffer that it is given, and nothing behind it. -/
def ExtOp.sized : ExtOp → Bool
  | .writeBuf _ count buffer => buffer.length == count
  | _ => true

/-- An operation of the guest, as the bodies perform them. -/
def ExtOp.ofGuest (op : ExtOp) : Bool := !op.ofRegistry && op.sized

/-- `w'` is `w` after some operations of the guest. -/
inductive Operates (env : Env G) (w : World G) : World G → Prop
  | refl : Operates env w w
  | exec {w' : World G} (h : Operates env w w') {op : ExtOp} (hop : op.ofGuest = true) :
      Operates env w (w'.exec env op).2

theorem Operates.one {op : ExtOp} (hop : op.ofGuest = true) : Operates env w (w.exec env op).2 :=
  .exec .refl hop

theorem Operates.trans (h : Operates env w w') (h' : Operates env w' w'') :
    Operates env w w'' := by
  induction h' with
  | refl => exact h
  | exec _ hop ih => exact .exec ih hop

/-- An operation whose answer has been taken apart. -/
theorem Operates.of_exec {op : ExtOp} {p : op.Res × World G} (hop : op.ofGuest = true)
    (h : w.exec env op = p) : Operates env w p.2 := by
  rw [← h]
  exact .one hop

theorem Operates.performs (h : Operates env w w') : Performs env w w' := by
  induction h with
  | refl => exact .refl
  | @exec w' _ op hop ih =>
    simp only [ExtOp.ofGuest, Bool.and_eq_true, Bool.not_eq_true'] at hop
    exact .exec ih hop.1

/-- The operations that lead from `w` to `w'` write the whole buffers that they are given. -/
def Sized (w w' : World G) : Prop := ∃ new, w'.ops = w.ops ++ new ∧ ∀ op ∈ new, op.sized = true

theorem Sized.of_ops_eq (h : w'.ops = w.ops) : Sized w w' := ⟨[], by simp [h], by simp⟩

theorem Sized.trans (h : Sized w w') (h' : Sized w' w'') : Sized w w'' := by
  obtain ⟨new, hops, hnew⟩ := h
  obtain ⟨new', hops', hnew'⟩ := h'
  refine ⟨new ++ new', by rw [hops', hops, List.append_assoc], ?_⟩
  intro op hop
  rcases List.mem_append.mp hop with hold | hlast
  · exact hnew op hold
  · exact hnew' op hlast

theorem Sized.exec (h : Sized w w') {op : ExtOp} (hop : op.sized = true) :
    Sized w (w'.exec env op).2 :=
  h.trans ⟨[op], rfl, by simpa using hop⟩

theorem Operates.sized (h : Operates env w w') : Sized w w' := by
  induction h with
  | refl => exact .of_ops_eq rfl
  | @exec w' _ op hop ih =>
    simp only [ExtOp.ofGuest, Bool.and_eq_true] at hop
    exact ih.exec hop.2

/-! ### Bodies -/

/-- Whether a body only performs operations on the guest. -/
def Body.Performs (body : Body G) : Prop :=
  ∀ env access w w' r, body env access w = .ok (w', r) → Vmi.Performs env w w'

/-- Whether a body only performs operations of the guest, on whole buffers. -/
def Body.Operates (body : Body G) : Prop :=
  ∀ env access w w' r, body env access w = .ok (w', r) → Vmi.Operates env w w'

theorem Body.Operates.performs {body : Body G} (h : body.Operates) : body.Performs :=
  fun env access w w' r hrun => (h env access w w' r hrun).performs

theorem reading_operates {f : Env G → Msg → World G → Except Fault (World G × Reply)}
    (hf : ∀ env m w w' r, f env m w = .ok (w', r) → Vmi.Operates env w w') :
    (reading f).Operates := by
  intro env access w w' r h
  obtain ⟨m, -, h⟩ := bind_eq_ok.mp h
  exact hf env m w w' r h

theorem readNumBody_operates (wd : Width) (s : Space) : (readNumBody wd s : Body G).Operates := by
  apply reading_operates
  intro env m w w' r h
  split at h
  · cases h
    exact .refl
  · cases h
    exact .one rfl

theorem readAddrBody_operates (s : Space) : (readAddrBody s : Body G).Operates := by
  apply reading_operates
  intro env m w w' r h
  split at h
  · cases h
    exact .refl
  · cases h
    exact .one rfl

theorem readStrBody_operates (s : Space) : (readStrBody s : Body G).Operates := by
  apply reading_operates
  intro env m w w' r h
  split at h
  · cases h
    exact .refl
  · dsimp only at h
    split at h
    · cases h
      exact .one rfl
    · cases h
      exact .one rfl

theorem readStrPaBody_operates : (readStrPaBody : Body G).Operates := by
  apply reading_operates
  intro env m w w' r h
  split at h
  · cases h
    exact .refl
  · dsimp only at h
    split at h
    · cases h
      exact .one rfl
    · cases h

/-- A buffer is allocated, or nothing is done. -/
theorem allocBuffer_operates (env : Env G) (m : Msg) (w : World G) :
    Operates env w (allocBuffer env m w).2 := by
  unfold allocBuffer
  split
  · exact .refl
  · exact .one rfl

theorem readBufBody_operates (s : Space) : (readBufBody s : Body G).Operates := by
  apply reading_operates
  intro env m w w' r h
  have halloc := allocBuffer_operates env m w
  dsimp only at h
  split at h
  · cases h
    exact .exec halloc rfl
  · cases h
    exact halloc

theorem readKsymBody_operates : (readKsymBody : Body G).Operates := by
  apply reading_operates
  intro env m w w' r h
  have halloc := allocBuffer_operates env m w
  dsimp only at h
  split at h
  · split at h
    · cases h
      exact .exec halloc rfl
    · cases h
  · cases h
    exact halloc

theorem writeNumBody_operates (wd : Width) (s : Space) :
    (writeNumBody wd s : Body G).Operates := by
  apply reading_operates
  intro env m w w' r h
  split at h
  · cases h
    exact .one rfl
  · cases h
    exact .refl

/-- The handlers of the bulk writes check the announced length against the buffer's. -/
theorem writeBuffer?_eq_some {m : Msg} {n : ℕ} {b : Bytes} (h : writeBuffer? m = some (n, b)) :
    countOk n = true ∧ b.length = n := by
  unfold writeBuffer? at h
  split at h
  · split at h
    · rename_i hcheck
      cases h
      simpa using hcheck
    · cases h
  · cases h

theorem writeBufBody_operates (s : Space) : (writeBufBody s : Body G).Operates := by
  apply reading_operates
  intro env m w w' r h
  split at h
  · rename_i l n b hl hbuffer
    cases h
    have hlength := (writeBuffer?_eq_some hbuffer).2
    exact .one (by simp [ExtOp.ofGuest, ExtOp.ofRegistry, ExtOp.sized, hlength])
  · cases h
    exact .refl

theorem translateBody_operates
    {run : Env G → Msg → World G → Option ((Status × Option UInt64) × World G)}
    (hrun : ∀ env m w a w', run env m w = some (a, w') → Operates env w w') :
    (translateBody run).Operates := by
  apply reading_operates
  intro env m w w' r h
  split at h
  · cases h
    exact .refl
  · rename_i st res w₁ hsome
    cases h
    exact hrun env m w _ _ hsome

theorem lookupBody_operates {run : Env G → Msg → World G → (Bool × Option UInt64) × World G}
    (hrun : ∀ env m w, Operates env w (run env m w).2) : (lookupBody run).Operates := by
  apply reading_operates
  intro env m w w' r h
  cases h
  exact hrun env m w

theorem stringBody_operates {op : Env G → World G → Option Bytes × World G}
    (hop : ∀ env w, Operates env w (op env w).2) : (stringBody op).Operates := by
  intro env access w w' r h
  unfold stringBody at h
  split at h
  · rename_i s w₁ heq
    cases h
    have hoperates := hop env w
    rw [heq] at hoperates
    exact hoperates
  · cases h

theorem numberBody_operates {op : Env G → World G → Val × World G}
    (hop : ∀ env w, Operates env w (op env w).2) : (numberBody op).Operates := by
  intro env access w w' r h
  cases h
  exact hop env w

theorem notImplementedBody_operates : (notImplementedBody : Body G).Operates := by
  intro env access w w' r h
  cases h
  exact .refl

theorem effectBody_operates {op : ExtOp} (hop : op.ofGuest = true) :
    (effectBody op : Body G).Operates := by
  intro env access w w' r h
  cases h
  exact .one hop

/-- The walk through the task list only reads the guest. -/
theorem processLoop_operates {env : Env G} {head tasksOffset pidOffset nameOffset : UInt64}
    {fuel : ℕ} {cur next : UInt64} {pid : Int32} {procs procs' : List Process} {st st' : Status}
    {w w' : World G}
    (h : processLoop env head tasksOffset pidOffset nameOffset fuel cur next pid procs st w =
      .ok (procs', st', w')) : Operates env w w' := by
  induction fuel generalizing cur next pid procs st w with
  | zero => cases h
  | succ fuel ih =>
    cases st with
    | failure =>
      rw [processLoop] at h
      cases h
      exact .refl
    | success =>
      rw [processLoop] at h
      dsimp only at h
      split at h
      · cases h
      · -- one entry: its pid, its name, and the address of the next one
        split at h
        · cases h
          exact .exec (.exec (.one rfl) rfl) rfl
        · have hrest := ih h
          exact .trans (.exec (.exec (.one rfl) rfl) rfl) hrest

theorem processListBody_operates : (processListBody : Body G).Operates := by
  intro env access w w' r h
  obtain ⟨⟨procs, st, w₁⟩, hloop, h⟩ := bind_eq_ok.mp h
  cases h
  have hwalk := processLoop_operates hloop
  exact .trans (.exec (.exec (.exec (.exec (.one rfl) rfl) rfl) rfl) rfl) hwalk

/-! ### Handlers -/

/-- The registry call that a call type is. -/
def registryCall? : Call → Option RegistryCall
  | .eventRegister => some .eventRegister
  | .eventClear => some .eventClear
  | .startSyscall => some .startSyscall
  | .stopSyscall => some .stopSyscall
  | _ => none

/-- A registry call is handled by its own handler. -/
theorem handlerOf_registryCall {c : Call} {rc : RegistryCall} (h : registryCall? c = some rc) :
    (handlerOf c : Handler G) = rc.handler := by
  cases c <;> cases h <;> rfl

/-- Every other handler, but the two that set `events_active`, only performs operations on the
    guest. -/
theorem handlerOf_operates {c : Call} (hreg : registryCall? c = none) (hstart : c ≠ .eventsStart)
    (hstop : c ≠ .eventsStop) : (handlerOf c : Handler G).body.Operates := by
  cases c
  case eventsStart => exact absurd rfl hstart
  case eventsStop => exact absurd rfl hstop
  case eventRegister | eventClear | startSyscall | stopSyscall => cases hreg
  case readNum w s => cases w <;> cases s <;> exact readNumBody_operates _ _
  case writeNum w s => cases w <;> cases s <;> exact writeNumBody_operates _ _
  case readAddr s => cases s <;> exact readAddrBody_operates _
  case writeBuf s => cases s <;> exact writeBufBody_operates _
  case readBuf s =>
    cases s
    · exact readBufBody_operates _
    · exact readBufBody_operates _
    · exact readKsymBody_operates
  case readStr s =>
    cases s
    · exact readStrPaBody_operates
    · exact readStrBody_operates _
    · exact readStrBody_operates _
  -- the operation of a translation is there when all its fields are set
  case translateKv2p | translateKsym2v | getOffset =>
    apply translateBody_operates
    intro env m w a w' h
    obtain ⟨v, -, hv⟩ := Option.map_eq_some_iff.mp h
    exact .of_exec rfl hv
  case translateUv2p =>
    apply translateBody_operates
    intro env m w a w' h
    split at h
    · exact .of_exec rfl (Option.some.inj h)
    · cases h
  case lookupSymbol | lookupStructure =>
    dsimp only [handlerOf, processLookupSymbol, processLookupStructure]
    apply lookupBody_operates
    intro env m w
    exact .one rfl
  case getName | getWinverStr => exact stringBody_operates fun _ _ => .one rfl
  case getVmid | getWinver | getMemsize =>
    dsimp only [handlerOf, processGetVmid, processGetWinver, processGetMemsize]
    apply numberBody_operates
    intro env w
    exact .one rfl
  case getAccessMode | getVcpureg | getOstype | getPageMode => exact notImplementedBody_operates
  case resumeVm | pauseVm => exact effectBody_operates rfl
  case processList => exact processListBody_operates
  case status =>
    intro env access w w' r h
    cases h
    exact .refl

/-- What a handler does is what its body does: a rejected link does nothing. -/
theorem Handler.run_operates {h : Handler G} (hb : h.body.Operates) {c : Call} {index : ℕ}
    {msgIn msgOut : VMIMessage} {l l' : LinkState} {r : Reply}
    (hr : h.run c env index msgIn msgOut l w = .ok (l', w', r)) : Operates env w w' := by
  rcases Handler.run_body hr with ⟨access, hbody⟩ | ⟨n, rfl, -⟩
  · exact hb _ _ _ _ _ hbody
  · exact .refl

/-! ### One call -/

/-- **One call** performs operations on the guest, sets `events_active`, or is a registry
    request. -/
theorem processSingle_effect {t index : ℕ} {msgIn msgOut out : VMIMessage} {l l' : LinkState}
    (h : processSingle env t index msgIn msgOut l w = .ok (l', w', out)) :
    Operates env w w' ∨
    (∃ b, w' = { w with eventsActive := b }) ∨
    ∃ c rc m r, t = c.num ∧ registryCall? c = some rc ∧
      rc.handler.core env (.ok m) w = .ok (w', r) := by
  cases hcall : Call.ofNum? t with
  | none =>
    unfold processSingle at h
    rw [hcall] at h
    cases h
    exact .inl .refl
  | some c =>
    obtain rfl := Call.num_of_ofNum? hcall
    obtain ⟨r, hrun, -⟩ := processSingle_call h
    by_cases hstart : c = .eventsStart
    · subst hstart
      cases hrun
      exact .inr (.inl ⟨true, rfl⟩)
    by_cases hstop : c = .eventsStop
    · subst hstop
      cases hrun
      exact .inr (.inl ⟨false, rfl⟩)
    cases hreg : registryCall? c with
    | none => exact .inl (Handler.run_operates (handlerOf_operates hreg hstart hstop) hrun)
    | some rc =>
      right
      right
      rw [handlerOf_registryCall hreg] at hrun
      rcases Handler.run_cases hrun with ⟨-, -, hcore⟩ | ⟨m, link, hlinked, -⟩
      · obtain ⟨m, hread⟩ := registry_read hcore
        exact ⟨c, rc, m, r, rfl, hreg, hread⟩
      · -- no registry handler resolves a link
        cases rc <;> cases hlinked

/-! ### The operations of a call -/

/-- The second half of a registration pauses, sets a trap and resumes. -/
theorem addTrapFor_sized {m : Msg} {kind : TrapKind} {obj : ℕ} {r : Reply}
    (h : addTrapFor env m kind obj w = .ok (w', r)) : Sized w w' := by
  unfold addTrapFor at h
  obtain ⟨owner, -, h⟩ := bind_eq_ok.mp h
  dsimp only [addEvent] at h
  split at h
  · cases h
    exact ⟨[.pause, .addTrap ⟨kind, obj⟩, .resume], by simp [World.exec], by simp [ExtOp.sized]⟩
  · cases h
    exact ⟨[.pause, .addTrap ⟨kind, obj⟩, .resume], by simp [World.exec], by simp [ExtOp.sized]⟩

theorem allocated_sized (env : Env G) (w : World G) (alloc : ℕ) (fl : List ℕ) :
    Sized w { w.allocated env with nextAlloc := alloc, freed := fl } :=
  ⟨[.malloc .trap, .malloc .eventItem], by simp [World.allocated, World.exec],
    by simp [ExtOp.sized]⟩

/-- A registry request writes no buffer. -/
theorem registry_sized {m : Msg} {rc : RegistryCall} {r : Reply}
    (h : rc.handler.core env (.ok m) w = .ok (w', r)) : Sized w w' := by
  cases rc with
  | eventRegister =>
    cases eventRegister_cases h with
    | full hfull => exact .of_ops_eq rfl
    | noMemory hroom => exact allocated_sized env w _ _
    | trap kind hroom htrap => exact (allocated_sized env w _ _).trans (addTrapFor_sized htrap)
    | otherRegister hroom htype hreg => exact allocated_sized env w _ _
    | otherType hroom htype hint => exact allocated_sized env w _ _
  | eventClear =>
    obtain ⟨m', -, h⟩ := bind_eq_ok.mp h
    dsimp only at h
    split at h
    · rename_i ei hei
      cases h
      exact ⟨[.pause, .removeTrap ei.event, .resume], by simp [World.exec], by simp [ExtOp.sized]⟩
    · cases h
      exact ⟨[.pause, .resume], by simp [World.exec], by simp [ExtOp.sized]⟩
  | startSyscall =>
    cases startSyscall_cases h with
    | running howner => exact .of_ops_eq rfl
    | noMemory howner hmalloc => exact Sized.exec (.of_ops_eq rfl) rfl
    | started owner howner hmalloc hident hstarted hw =>
      refine ⟨[.malloc .eventItem, .pause, .newSyscalls, .resume], ?_, by simp [ExtOp.sized]⟩
      rw [hw]
      simp [World.starting, World.exec]
  | stopSyscall =>
    have h : stopSyscallBody env (.ok m) w = .ok (w', r) := h
    unfold stopSyscallBody at h
    split at h
    · cases h
      exact .of_ops_eq rfl
    · split at h
      · cases h
      · cases h
        exact ⟨[.pause, .deleteSyscalls, .resume], by simp, by simp [ExtOp.sized]⟩

/-- **One call** writes whole buffers only. -/
theorem processSingle_sized {t index : ℕ} {msgIn msgOut out : VMIMessage} {l l' : LinkState}
    (h : processSingle env t index msgIn msgOut l w = .ok (l', w', out)) : Sized w w' := by
  rcases processSingle_effect h with hoperates | ⟨b, rfl⟩ | ⟨c, rc, m, r, -, -, hcore⟩
  · exact hoperates.sized
  · exact .of_ops_eq rfl
  · exact registry_sized hcore

theorem Reaches.sized {msgIn : VMIMessage} {w₀ : World G} {i : ℕ} {l : LinkState} {out : VMIMessage}
    (h : Reaches env msgIn w₀ i l w out) : Sized w₀ w := by
  induction h with
  | start => exact .of_ops_eq rfl
  | next _ _ _ hs ih => exact ih.trans (processSingle_sized hs)

/-- **A message** writes whole buffers only, whatever it asks for and links to. -/
theorem processProtobuf_sized {msgIn out : VMIMessage}
    (h : processProtobuf env msgIn w = .ok (w', out)) : Sized w w' := by
  obtain ⟨i, l, hreach, -⟩ := reaches_of_processProtobuf h
  exact hreach.sized

end Furnace.Vmi
