import Furnace.Vmi.Frame

namespace Furnace.Vmi

open Furnace.Proto Furnace.Lib

/-!
# Which calls report errors

Most handlers tell of a failure in the status of their reply, and leave the error flag alone.
The flag is set by four handlers that are not implemented, always, and by the four of the
registry, when they refuse a request.

* `handlerOf_unflagged` — the handlers that never set it.
* `registry_flagged` — a registry request that sets it has failed, and its reply says so unless
  `start_syscall` found no memory.
-/

variable {G : Type}

/-! ### Bodies -/

/-- Whether a body never sets the error flag. -/
def Body.Unflagged (body : Body G) : Prop :=
  ∀ env access w w' r, body env access w = .ok (w', r) → r.errorNum = none

theorem reading_unflagged {f : Env G → Msg → World G → Except Fault (World G × Reply)}
    (hf : ∀ env m w w' r, f env m w = .ok (w', r) → r.errorNum = none) :
    (reading f).Unflagged := by
  intro env access w w' r h
  obtain ⟨m, -, h⟩ := bind_eq_ok.mp h
  exact hf env m w w' r h

theorem readNumBody_unflagged (wd : Width) (s : Space) :
    (readNumBody wd s : Body G).Unflagged := by
  apply reading_unflagged
  intro env m w w' r h
  split at h <;> (cases h; rfl)

theorem readAddrBody_unflagged (s : Space) : (readAddrBody s : Body G).Unflagged := by
  apply reading_unflagged
  intro env m w w' r h
  split at h <;> (cases h; rfl)

theorem readStrBody_unflagged (s : Space) : (readStrBody s : Body G).Unflagged := by
  apply reading_unflagged
  intro env m w w' r h
  split at h
  · cases h
    rfl
  · dsimp only at h
    split at h <;> (cases h; rfl)

theorem readStrPaBody_unflagged : (readStrPaBody : Body G).Unflagged := by
  apply reading_unflagged
  intro env m w w' r h
  split at h
  · cases h
    rfl
  · dsimp only at h
    split at h
    · cases h
      rfl
    · cases h

theorem readBufBody_unflagged (s : Space) : (readBufBody s : Body G).Unflagged := by
  apply reading_unflagged
  intro env m w w' r h
  dsimp only at h
  split at h <;> (cases h; rfl)

theorem readKsymBody_unflagged : (readKsymBody : Body G).Unflagged := by
  apply reading_unflagged
  intro env m w w' r h
  dsimp only at h
  split at h
  · split at h
    · cases h
      rfl
    · cases h
  · cases h
    rfl

theorem writeNumBody_unflagged (wd : Width) (s : Space) :
    (writeNumBody wd s : Body G).Unflagged := by
  apply reading_unflagged
  intro env m w w' r h
  split at h <;> (cases h; rfl)

theorem writeBufBody_unflagged (s : Space) : (writeBufBody s : Body G).Unflagged := by
  apply reading_unflagged
  intro env m w w' r h
  split at h <;> (cases h; rfl)

theorem translateBody_unflagged
    (run : Env G → Msg → World G → Option ((Status × Option UInt64) × World G)) :
    (translateBody run).Unflagged := by
  apply reading_unflagged
  intro env m w w' r h
  split at h <;> (cases h; rfl)

theorem lookupBody_unflagged (run : Env G → Msg → World G → (Bool × Option UInt64) × World G) :
    (lookupBody run).Unflagged := by
  apply reading_unflagged
  intro env m w w' r h
  cases h
  rfl

theorem stringBody_unflagged (op : Env G → World G → Option Bytes × World G) :
    (stringBody op).Unflagged := by
  intro env access w w' r h
  unfold stringBody at h
  split at h
  · cases h
    rfl
  · cases h

theorem numberBody_unflagged (op : Env G → World G → Val × World G) :
    (numberBody op).Unflagged := by
  intro env access w w' r h
  cases h
  rfl

theorem processListBody_unflagged : (processListBody : Body G).Unflagged := by
  intro env access w w' r h
  -- however the walk ends, the reply has a status
  obtain ⟨⟨procs, st, w₁⟩, -, h⟩ := bind_eq_ok.mp h
  cases h
  rfl

/-! ### Handlers -/

/-- The calls that are not implemented. -/
def unimplemented : List Call := [.getAccessMode, .getVcpureg, .getOstype, .getPageMode]

/-- Every handler but those and the registry's leaves the error flag alone. -/
theorem handlerOf_unflagged {c : Call} (hreg : registryCall? c = none) (hc : c ∉ unimplemented) :
    (handlerOf c : Handler G).body.Unflagged := by
  cases c
  case getAccessMode | getVcpureg | getOstype | getPageMode => exact absurd (by decide) hc
  case eventRegister | eventClear | startSyscall | stopSyscall => cases hreg
  case readNum w s => cases w <;> cases s <;> exact readNumBody_unflagged _ _
  case writeNum w s => cases w <;> cases s <;> exact writeNumBody_unflagged _ _
  case readAddr s => cases s <;> exact readAddrBody_unflagged _
  case writeBuf s => cases s <;> exact writeBufBody_unflagged _
  case readBuf s =>
    cases s
    · exact readBufBody_unflagged _
    · exact readBufBody_unflagged _
    · exact readKsymBody_unflagged
  case readStr s =>
    cases s
    · exact readStrPaBody_unflagged
    · exact readStrBody_unflagged _
    · exact readStrBody_unflagged _
  case translateKv2p | translateUv2p | translateKsym2v | getOffset =>
    exact translateBody_unflagged _
  case lookupSymbol | lookupStructure =>
    dsimp only [handlerOf, processLookupSymbol, processLookupStructure]
    exact lookupBody_unflagged _
  case getName | getWinverStr => exact stringBody_unflagged _
  case getVmid | getWinver | getMemsize =>
    dsimp only [handlerOf, processGetVmid, processGetWinver, processGetMemsize]
    exact numberBody_unflagged _
  case processList => exact processListBody_unflagged
  case eventsStart | eventsStop | resumeVm | pauseVm | status =>
    intro env access w w' r h
    cases h
    rfl

/-- A handler without a link is its body. -/
theorem Handler.core_unflagged {h : Handler G} (hb : h.body.Unflagged) {env : Env G}
    {access : Except Fault Msg} {w w' : World G} {r : Reply}
    (hcore : h.core env access w = .ok (w', r)) : r.errorNum = none := by
  obtain ⟨access', hbody⟩ := Handler.core_body hcore
  exact hb _ _ _ _ _ hbody

section Registry

variable {env : Env G} {c : RegistryCall} {m : Msg} {w w' : World G} {r : Reply}

/-- **A registry request that sets the error flag** has failed; its reply has a failure status,
    or is missing, unless the request is a `START_SYSCALL` for which there is no memory. -/
theorem registry_flagged (h : c.handler.core env (.ok m) w = .ok (w', r))
    (hr : r.errorNum ≠ none) :
    r.Failed ∧ (r.entry = none → c = .eventRegister) ∨
      c = .startSyscall ∧ w.syscallPluginOwner = none ∧ r = .stub 1 := by
  have hstep := registry_step h
  cases hstep with
  | refused g new alloc fl hfailed hentry hnew hfl hw => exact .inl ⟨hfailed, hentry⟩
  | unallocated g howner hw => exact .inr ⟨rfl, howner, rfl⟩
  | registered | cleared | started | stopped => exact absurd rfl hr

/-- `STOP_SYSCALL` is refused when no plugin runs, and only then. -/
theorem stopSyscall_flagged
    (h : (processStopSyscall : Handler G).core env (.ok m) w = .ok (w', r)) :
    r.errorNum ≠ none ↔ w.syscallPluginOwner = none := by
  change stopSyscallBody env (.ok m) w = _ at h
  unfold stopSyscallBody at h
  split at h
  · rename_i hnone
    cases h
    simp [Reply.okWithError, hnone]
  · rename_i owner hsome
    split at h
    · cases h
    · cases h
      simp [Reply.ok, hsome]

/-- Without memory for the pseudo-event, the reply of `START_SYSCALL` has no status. -/
theorem startSyscall_stub (howner : w.syscallPluginOwner = none)
    (hmalloc : (env.exec (.malloc .eventItem) w.guest).1 = false)
    (h : (processStartSyscall : Handler G).core env (.ok m) w = .ok (w', r)) : r = .stub 1 := by
  have hnone : (w.exec env (.malloc .eventItem)).1 = false := hmalloc
  have hcase : StartCase env m w w' r := startSyscall_cases h
  cases hcase with
  | running hrunning => exact absurd howner hrunning
  | noMemory => rfl
  | started owner _ hallocated =>
    rw [hnone] at hallocated
    cases hallocated

end Registry

end Furnace.Vmi
