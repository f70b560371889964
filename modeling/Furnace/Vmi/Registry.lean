import Furnace.Lib.FirstFree
import Furnace.Vmi.Handlers

namespace Furnace.Vmi

open Furnace.Proto Furnace.Lib

/-!
# The event registry and the syscall plugin

`event_register`, `event_clear`, `start_syscall` and `stop_syscall`: the four calls that
change the `events` map.  The syscall plugin sits in the same map as a pseudo-event whose
trap is NULL.

* `RegistryStep` — everything one of these calls can do to the registry, one constructor
  for each way it can end.
* `eventRegister_cases`, `startSyscall_cases` — how the two longer handlers return, with what
  they have checked.
* `registry_step` — every request of the four kinds that is handled is such a step.
-/

variable {G : Type}

/-- `EventType` and `RegType`. -/
def fReg : ℕ := 1
def fEpt : ℕ := 2
def fInt : ℕ := 3
def fCr3 : ℕ := 1

/-- `strdup(scratch_ident)`, with the last byte replaced by `d`: the dealer socket of the
    client that sent the message. -/
def ownerOf (ident : Bytes) : Except Fault Bytes :=
  if ident.isEmpty then .error .bufferOverrun else .ok (ident.dropLast ++ literal "d")

/-- `add_event`: the event goes into the lowest free slot. -/
def addEvent (e : EventItem) (el : AList fun _ : ℕ => EventItem) :
    EventItem × AList fun _ : ℕ => EventItem :=
  let e := { e with id := firstFree el }
  (e, el.insert e.id e)

/-- The identifier an `event_item` has before `add_event`. -/
def noId : ℕ := 2 ^ 64 - 1

/-! ### `event_register` -/

/-- The second half of `event_register`: the event is added, then its trap, and a trap that
    cannot be set takes the event away again. -/
def addTrapFor (env : Env G) (m : Msg) (kind : TrapKind) (obj : ℕ) (w : World G) :
    Except Fault (World G × Reply) := do
  let owner ← ownerOf w.scratchIdent
  let trap : Trap := ⟨kind, obj⟩
  let (ei, events) := addEvent ⟨noId, m.enumOr1 .syncState, true, some trap, some owner, obj⟩
    w.events
  let w := { w with events := events }
  let (_, w) := w.exec env .pause
  -- the event is in the map before its trap is set
  let (added, w) := w.exec env (.addTrap trap)
  if added then
    let (_, w) := w.exec env .resume
    .ok (w, .ok ((statusOnly .success).set .identifier (.u64 (.ofNat ei.id))))
  else
    let w := { w with events := w.events.erase ei.id, freed := w.freed ++ [obj] }
    let (_, w) := w.exec env .resume
    .ok (w, .okWithError ((statusOnly .failure).set .identifier (.u64 0)) 5)

def eventRegisterBody : Body G := fun env access w =>
  if maxEvents ≤ w.events.entries.length then .ok (w, .fail 1)
  else
    let (trapAllocated, w) := w.exec env (.malloc .trap)
    let (eiAllocated, w) := w.exec env (.malloc .eventItem)
    -- whichever of the two was allocated leaks
    if !(trapAllocated && eiAllocated) then .ok (w, .fail 2)
    else do
      let obj := w.nextAlloc
      let w := { w with nextAlloc := obj + 1 }
      let m ← access
      if m.enumOr1 .eventType = fReg then
        if m.enumOr1 .regValue = fCr3 then addTrapFor env m .cr3 obj w
        -- neither the trap nor the event is freed on this path
        else .ok (w, .okWithError (statusOnly .failure) 3)
      else if m.enumOr1 .eventType = fInt then
        addTrapFor env m (.breakpoint ((m.u64? .bpAddr).getD 0) ((m.i32? .bpPid).getD 0)
          (cStr ((m.str? .bpName).getD []))) obj w
      else
        -- F_EPT, and the default
        .ok ({ w with freed := w.freed ++ [obj] }, .fail 4)

def processEventRegister : Handler G := ⟨false, eventRegisterBody⟩

/-! ### `event_clear` -/

def eventClearBody : Body G := reading fun env m w =>
  let id := (m.u64? .identifier).getD 0
  let (_, w) := w.exec env .pause
  match w.events.lookup id.toNat with
  | some ei =>
    -- any entry will do, also the pseudo-event of the plugin, whose trap is NULL
    let (_, w) := w.exec env (.removeTrap ei.event)
    let w := { w with events := w.events.erase ei.id, freed := w.freed ++ [ei.obj] }
    let (_, w) := w.exec env .resume
    .ok (w, .ok ((statusOnly .success).set .identifier (.u64 id)))
  | none =>
    let (_, w) := w.exec env .resume
    .ok (w, .okWithError ((statusOnly .failure).set .identifier (.u64 id)) 1)

def processEventClear : Handler G := ⟨false, eventClearBody⟩

/-! ### `start_syscall` and `stop_syscall` -/

def startSyscallBody : Body G := fun env access w =>
  match w.syscallPluginOwner with
  | none =>
    let (allocated, w) := w.exec env (.malloc .eventItem)
    -- the reply was made before the allocation, and stays without a status
    if !allocated then .ok (w, .stub 1)
    else do
      let obj := w.nextAlloc
      let w := { w with nextAlloc := obj + 1 }
      let m ← access
      let syncState := m.enumOr1 .syncState
      let (ei, events) := addEvent ⟨noId, syncState, true, none, none, obj⟩ w.events
      let w := { w with events := events, syscallPluginEi := some obj,
                        syscallPluginEventId := ei.id }
      let (_, w) := w.exec env .pause
      -- the pseudo-event is in the map before the plugin is constructed
      let (started, w) := w.exec env .newSyscalls
      if started then
        let owner ← ownerOf w.scratchIdent
        let w := { w with syscallPluginSyncState := syncState, syscallPluginOwner := some owner }
        let (_, w) := w.exec env .resume
        .ok (w, .ok ((statusOnly .success).set .identifier (.u64 (.ofNat ei.id))))
      else
        -- the constructor of the plugin throws
        .error .exception
  | some _ => .ok (w, .okWithError ((statusOnly .failure).set .identifier (.u64 0)) 2)

def processStartSyscall : Handler G := ⟨false, startSyscallBody⟩

def stopSyscallBody : Body G := fun env _ w =>
  match w.syscallPluginOwner with
  | none => .ok (w, .okWithError (statusOnly .failure) 1)
  | some _ =>
    -- `event_clear` may have removed the entry in the meantime
    if w.syscallPluginEventId ∉ w.events then .error .assertion
    else
      let (_, w) := w.exec env .pause
      -- the entry goes by the recorded identifier, the free by the recorded pointer
      let w := { w with events := w.events.erase w.syscallPluginEventId,
                        freed := w.freed ++ w.syscallPluginEi.toList }
      let (_, w) := w.exec env .deleteSyscalls
      let w := { w with syscallPluginOwner := none }
      let (_, w) := w.exec env .resume
      .ok (w, .ok (statusOnly .success))

def processStopSyscall : Handler G := ⟨false, stopSyscallBody⟩

/-! ### What a step can do -/

/-- The four calls that change the registry. -/
inductive RegistryCall
  | eventRegister | eventClear | startSyscall | stopSyscall
  deriving DecidableEq, Repr

/-- The handler of a registry call. -/
def RegistryCall.handler : RegistryCall → Handler G
  | .eventRegister => processEventRegister
  | .eventClear => processEventClear
  | .startSyscall => processStartSyscall
  | .stopSyscall => processStopSyscall

/-- The identifier that a request names; `0` when it names none. -/
def identifier (m : Msg) : ℕ := ((m.u64? .identifier).getD 0).toNat

/-- A reply that tells the client of a failure: no sub-message, or one with a failure
    status. -/
def Reply.Failed (r : Reply) : Prop :=
  r.errorNum ≠ none ∧ ∀ m, r.entry = some m → m.i32? .status = some 1

/-- **What one registry request does** to the world, and its reply.  `new` are the external
    operations it performs, `g` is the guest they leave. -/
inductive RegistryStep (w : World G) (m : Msg) : RegistryCall → World G → Reply → Prop
  /-- The request fails.  A failed registration may already have allocated its event, and
      may have no reply sub-message. -/
  | refused {c : RegistryCall} {w' : World G} {r : Reply} (g : G) (new : List ExtOp) (alloc : ℕ)
      (fl : List ℕ) (hr : r.Failed) (hentry : r.entry = none → c = .eventRegister)
      (hnew : ∀ t, .removeTrap t ∉ new)
      (hfl : alloc = w.nextAlloc ∧ fl = [] ∨
        alloc = w.nextAlloc + 1 ∧ (fl = [] ∨ fl = [w.nextAlloc]))
      (hw : w' = { w with guest := g, ops := w.ops ++ new, nextAlloc := alloc,
                          freed := w.freed ++ fl }) : RegistryStep w m c w' r
  /-- An event is registered in the lowest free slot, under a new allocation. -/
  | registered {w' : World G} (g : G) (new : List ExtOp) (ei : EventItem)
      (hroom : w.events.entries.length < maxEvents) (hid : ei.id = firstFree w.events)
      (hobj : ei.obj = w.nextAlloc) (hevent : ei.event.isSome) (hactive : ei.active = true)
      (hsync : ei.syncState = m.enumOr1 .syncState) (hnew : ∀ t, .removeTrap t ∉ new)
      (hw : w' = { w with guest := g, ops := w.ops ++ new, events := w.events.insert ei.id ei,
                          nextAlloc := w.nextAlloc + 1 }) :
      RegistryStep w m .eventRegister w'
        (.ok ((statusOnly .success).set .identifier (.u64 (.ofNat ei.id))))
  /-- The entry that the request names is cleared: its trap is removed, the slot of its own
      identifier is emptied and the event is freed. -/
  | cleared {w' : World G} (g : G) (ei : EventItem)
      (hei : w.events.lookup (identifier m) = some ei)
      (hw : w' = { w with guest := g, ops := w.ops ++ [.pause, .removeTrap ei.event, .resume],
                          events := w.events.erase ei.id, freed := w.freed ++ [ei.obj] }) :
      RegistryStep w m .eventClear w'
        (.ok ((statusOnly .success).set .identifier (.u64 ((m.u64? .identifier).getD 0))))
  /-- `start_syscall` has no memory for the pseudo-event. -/
  | unallocated {w' : World G} (g : G) (howner : w.syscallPluginOwner = none)
      (hw : w' = { w with guest := g, ops := w.ops ++ [.malloc .eventItem] }) :
      RegistryStep w m .startSyscall w' (.stub 1)
  /-- The plugin is started; its pseudo-event goes into the lowest free slot. -/
  | started {w' : World G} (g : G) (new : List ExtOp) (ei : EventItem) (owner : Bytes)
      (howner : w.syscallPluginOwner = none) (hid : ei.id = firstFree w.events)
      (hobj : ei.obj = w.nextAlloc) (hevent : ei.event = none) (hnew : ∀ t, .removeTrap t ∉ new)
      (hw : w' = { w with guest := g, ops := w.ops ++ new, events := w.events.insert ei.id ei,
                          syscallPluginEi := some ei.obj, syscallPluginEventId := ei.id,
                          syscallPluginSyncState := ei.syncState,
                          syscallPluginOwner := some owner, nextAlloc := w.nextAlloc + 1 }) :
      RegistryStep w m .startSyscall w'
        (.ok ((statusOnly .success).set .identifier (.u64 (.ofNat ei.id))))
  /-- The plugin is stopped: the slot under its recorded identifier is emptied and its
      recorded pseudo-event is freed. -/
  | stopped {w' : World G} (g : G) (howner : w.syscallPluginOwner ≠ none)
      (hmem : w.syscallPluginEventId ∈ w.events)
      (hw : w' = { w with guest := g, ops := w.ops ++ [.pause, .deleteSyscalls, .resume],
                          events := w.events.erase w.syscallPluginEventId,
                          freed := w.freed ++ w.syscallPluginEi.toList,
                          syscallPluginOwner := none }) :
      RegistryStep w m .stopSyscall w' (.ok (statusOnly .success))

/-- A failed request that leaves the allocator alone. -/
theorem RegistryStep.refused_plain {w w' : World G} {m : Msg} {c : RegistryCall} {r : Reply} (g : G)
    (new : List ExtOp) (hr : r.Failed) (hentry : r.entry = none → c = .eventRegister)
    (hnew : ∀ t, .removeTrap t ∉ new)
    (hw : w' = { w with guest := g, ops := w.ops ++ new }) : RegistryStep w m c w' r :=
  .refused g new w.nextAlloc [] hr hentry hnew (.inl ⟨rfl, rfl⟩) (by simpa using hw)

/-! A failed reply has no sub-message, or a failure status. -/

theorem Reply.failed_fail (n : ℕ) : (Reply.fail n).Failed := by
  refine ⟨by simp [Reply.fail], fun m hm => ?_⟩
  simp [Reply.fail] at hm

theorem Reply.failed_status (n : ℕ) : (Reply.okWithError (statusOnly .failure) n).Failed := by
  refine ⟨by simp [Reply.okWithError], fun m hm => ?_⟩
  cases hm
  rfl

theorem Reply.failed_statusIdentifier (id : UInt64) (n : ℕ) :
    (Reply.okWithError ((statusOnly .failure).set .identifier (.u64 id)) n).Failed := by
  refine ⟨by simp [Reply.okWithError], fun m hm => ?_⟩
  cases hm
  rfl

/-- The second half of a registration, after its allocations. -/
theorem addTrapFor_step {env : Env G} {m : Msg} {kind : TrapKind} {w₀ w w' : World G} {r : Reply}
    {new : List ExtOp} (hnew : ∀ t, .removeTrap t ∉ new)
    (hroom : w₀.events.entries.length < maxEvents)
    (hw : w = { w₀ with guest := w.guest, ops := w₀.ops ++ new, nextAlloc := w₀.nextAlloc + 1 })
    (h : addTrapFor env m kind w₀.nextAlloc w = .ok (w', r)) :
    RegistryStep w₀ m .eventRegister w' r := by
  generalize w.guest = g at hw
  subst hw
  unfold addTrapFor at h
  obtain ⟨owner, -, h⟩ := bind_eq_ok.mp h
  dsimp only [addEvent] at h
  have hops : ∀ t,
      ExtOp.removeTrap t ∉ new ++ [.pause, .addTrap ⟨kind, w₀.nextAlloc⟩, .resume] := by
    simpa using hnew
  split at h
  · obtain ⟨hw', rfl⟩ := Prod.mk.inj (Except.ok.inj h)
    -- the trap is set: the new entry is the event, under the slot that was free before
    refine .registered w'.guest _
      ⟨firstFree w₀.events, m.enumOr1 .syncState, true, some ⟨kind, w₀.nextAlloc⟩, some owner,
        w₀.nextAlloc⟩ hroom rfl rfl rfl rfl rfl hops ?_
    rw [← hw']
    simp [World.exec]
  · -- the trap cannot be set: the slot that was just filled is emptied again
    obtain ⟨hw', rfl⟩ := Prod.mk.inj (Except.ok.inj h)
    refine .refused w'.guest _ (w₀.nextAlloc + 1) [w₀.nextAlloc] (Reply.failed_statusIdentifier 0 5)
      (fun _ => rfl) hops (.inr ⟨rfl, .inr rfl⟩) ?_
    rw [← hw']
    simp [World.exec, erase_insert_of_not_mem _ _ (firstFree_not_mem w₀.events)]

/-! ### How the handlers return -/

/-- The world after the allocations of a registration. -/
def World.allocated (env : Env G) (w : World G) : World G :=
  ((w.exec env (.malloc .trap)).2.exec env (.malloc .eventItem)).2

/-- **How `event_register` returns.** -/
inductive RegisterCase (env : Env G) (m : Msg) (w : World G) : World G → Reply → Prop
  | full (hfull : maxEvents ≤ w.events.entries.length) : RegisterCase env m w w (.fail 1)
  | noMemory (hroom : w.events.entries.length < maxEvents) :
    RegisterCase env m w (w.allocated env) (.fail 2)
  /-- A trap is set up, or the attempt is made. -/
  | trap {w' : World G} {r : Reply} (kind : TrapKind)
      (hroom : w.events.entries.length < maxEvents)
      (h : addTrapFor env m kind w.nextAlloc
        { w.allocated env with nextAlloc := w.nextAlloc + 1 } = .ok (w', r)) :
      RegisterCase env m w w' r
  /-- A register other than CR3: the event item leaks. -/
  | otherRegister (hroom : w.events.entries.length < maxEvents)
      (htype : m.enumOr1 .eventType = fReg) (hreg : ¬m.enumOr1 .regValue = fCr3) :
      RegisterCase env m w { w.allocated env with nextAlloc := w.nextAlloc + 1 }
        (.okWithError (statusOnly .failure) 3)
  | otherType (hroom : w.events.entries.length < maxEvents)
      (htype : ¬m.enumOr1 .eventType = fReg) (hint : ¬m.enumOr1 .eventType = fInt) :
      RegisterCase env m w { w.allocated env with nextAlloc := w.nextAlloc + 1
                                                  freed := w.freed ++ [w.nextAlloc] } (.fail 4)

theorem eventRegister_cases {env : Env G} {m : Msg} {w w' : World G} {r : Reply}
    (h : eventRegisterBody env (.ok m) w = .ok (w', r)) : RegisterCase env m w w' r := by
  unfold eventRegisterBody at h
  by_cases hfull : maxEvents ≤ w.events.entries.length
  · rw [if_pos hfull] at h
    cases h
    exact .full hfull
  rw [if_neg hfull] at h
  have hroom : w.events.entries.length < maxEvents := not_le.mp hfull
  dsimp only at h
  split at h
  · cases h
    exact .noMemory hroom
  -- past the allocations the event type decides
  rw [ok_bind] at h
  split at h
  · rename_i htype
    split at h
    · exact .trap .cr3 hroom h
    · rename_i hreg
      cases h
      exact .otherRegister hroom htype hreg
  · rename_i htype
    split at h
    · exact .trap _ hroom h
    · rename_i hint
      cases h
      exact .otherType hroom htype hint

/-- The world in which the syscall plugin is constructed: its pseudo-event is in the map, and
    the guest is paused. -/
def World.starting (env : Env G) (m : Msg) (w : World G) : World G :=
  let id := firstFree w.events
  let w₁ := { (w.exec env (.malloc .eventItem)).2 with
    nextAlloc := w.nextAlloc + 1
    events := w.events.insert id ⟨id, m.enumOr1 .syncState, true, none, none, w.nextAlloc⟩
    syscallPluginEi := some w.nextAlloc
    syscallPluginEventId := id }
  (w₁.exec env .pause).2

/-- **How `start_syscall` returns**: a constructor that throws does not. -/
inductive StartCase (env : Env G) (m : Msg) (w : World G) : World G → Reply → Prop
  | running (howner : w.syscallPluginOwner ≠ none) :
    StartCase env m w w (.okWithError ((statusOnly .failure).set .identifier (.u64 0)) 2)
  | noMemory (howner : w.syscallPluginOwner = none)
      (hmalloc : (w.exec env (.malloc .eventItem)).1 = false) :
      StartCase env m w (w.exec env (.malloc .eventItem)).2 (.stub 1)
  | started {w' : World G} (owner : Bytes) (howner : w.syscallPluginOwner = none)
      (hmalloc : (w.exec env (.malloc .eventItem)).1 = true)
      (hident : ownerOf w.scratchIdent = .ok owner)
      (hstarted : ((w.starting env m).exec env .newSyscalls).1 = true)
      (hw : w' = ({ ((w.starting env m).exec env .newSyscalls).2 with
        syscallPluginSyncState := m.enumOr1 .syncState
        syscallPluginOwner := some owner }.exec env .resume).2) :
      StartCase env m w w'
        (.ok ((statusOnly .success).set .identifier (.u64 (.ofNat (firstFree w.events)))))

theorem startSyscall_cases {env : Env G} {m : Msg} {w w' : World G} {r : Reply}
    (h : startSyscallBody env (.ok m) w = .ok (w', r)) : StartCase env m w w' r := by
  unfold startSyscallBody at h
  cases howner : w.syscallPluginOwner with
  | some owner =>
    rw [howner] at h
    cases h
    exact .running (by simp [howner])
  | none =>
    rw [howner] at h
    dsimp only at h
    cases hmalloc : (w.exec env (.malloc .eventItem)).1 with
    | false =>
      rw [hmalloc] at h
      cases h
      exact .noMemory howner hmalloc
    | true =>
      rw [hmalloc] at h
      dsimp only [addEvent] at h
      obtain ⟨m', hm', h⟩ := bind_eq_ok.mp h
      cases hm'
      obtain ⟨hstarted, h⟩ := ite_error_eq_ok.mp h
      obtain ⟨owner, hident, h⟩ := bind_eq_ok.mp h
      cases h
      exact .started owner howner hmalloc hident hstarted rfl

theorem eventRegister_step {env : Env G} {m : Msg} {w w' : World G} {r : Reply}
    (h : eventRegisterBody env (.ok m) w = .ok (w', r)) : RegistryStep w m .eventRegister w' r := by
  have hnew : ∀ t, ExtOp.removeTrap t ∉ [ExtOp.malloc .trap, .malloc .eventItem] := by simp
  have halloc : w.allocated env =
      { w with guest := (w.allocated env).guest
               ops := w.ops ++ [.malloc .trap, .malloc .eventItem] } := by
    simp [World.allocated, World.exec]
  cases eventRegister_cases h with
  | full hfull =>
    exact .refused_plain w.guest [] (Reply.failed_fail 1) (fun _ => rfl) (by simp) (by simp)
  | noMemory hroom =>
    exact .refused_plain _ _ (Reply.failed_fail 2) (fun _ => rfl) hnew halloc
  | trap kind hroom htrap =>
    refine addTrapFor_step hnew hroom ?_ htrap
    rw [halloc]
  | otherRegister hroom htype hreg =>
    refine .refused (w.allocated env).guest _ (w.nextAlloc + 1) [] (Reply.failed_status 3)
      (fun _ => rfl) hnew (.inr ⟨rfl, .inl rfl⟩) ?_
    rw [halloc]
    simp
  | otherType hroom htype hint =>
    refine .refused (w.allocated env).guest _ (w.nextAlloc + 1) [w.nextAlloc]
      (Reply.failed_fail 4) (fun _ => rfl) hnew (.inr ⟨rfl, .inr rfl⟩) ?_
    rw [halloc]

theorem eventClear_step {env : Env G} {m : Msg} {w w' : World G} {r : Reply}
    (h : eventClearBody env (.ok m) w = .ok (w', r)) : RegistryStep w m .eventClear w' r := by
  obtain ⟨m', hm', h⟩ := bind_eq_ok.mp h
  cases hm'
  dsimp only at h
  split at h
  case h_1 ei hei =>
    obtain ⟨hw', rfl⟩ := Prod.mk.inj (Except.ok.inj h)
    refine .cleared w'.guest ei (by simpa [identifier] using hei) ?_
    rw [← hw']
    simp [World.exec]
  case h_2 =>
    obtain ⟨hw', rfl⟩ := Prod.mk.inj (Except.ok.inj h)
    refine .refused_plain w'.guest [.pause, .resume] (Reply.failed_statusIdentifier _ 1) nofun
      (by simp) ?_
    rw [← hw']
    simp [World.exec]

theorem startSyscall_step {env : Env G} {m : Msg} {w w' : World G} {r : Reply}
    (h : startSyscallBody env (.ok m) w = .ok (w', r)) : RegistryStep w m .startSyscall w' r := by
  cases startSyscall_cases h with
  | running howner =>
    exact .refused_plain w.guest [] (Reply.failed_statusIdentifier 0 2) nofun (by simp) (by simp)
  | noMemory howner hmalloc => exact .unallocated _ howner rfl
  | started owner howner hmalloc hident hstarted hw =>
    refine .started w'.guest [.malloc .eventItem, .pause, .newSyscalls, .resume]
      ⟨firstFree w.events, m.enumOr1 .syncState, true, none, none, w.nextAlloc⟩ owner howner rfl rfl
      rfl (by simp) ?_
    rw [hw]
    simp [World.starting, World.exec]

theorem stopSyscall_step {env : Env G} {m : Msg} {w w' : World G} {r : Reply}
    (h : stopSyscallBody env (.ok m) w = .ok (w', r)) : RegistryStep w m .stopSyscall w' r := by
  unfold stopSyscallBody at h
  split at h
  case h_1 =>
    obtain ⟨rfl, rfl⟩ := Prod.mk.inj (Except.ok.inj h)
    exact .refused_plain w.guest [] (Reply.failed_status 1) nofun (by simp) (by simp)
  case h_2 owner howner =>
    by_cases hmem : w.syscallPluginEventId ∈ w.events
    · rw [if_neg (not_not.mpr hmem)] at h
      obtain ⟨hw', rfl⟩ := Prod.mk.inj (Except.ok.inj h)
      refine .stopped w'.guest (by simp [howner]) hmem ?_
      rw [← hw']
      simp
    · rw [if_pos hmem] at h
      cases h

/-- **Every handled registry request is a registry step.** -/
theorem registry_step {env : Env G} {m : Msg} {c : RegistryCall} {w w' : World G} {r : Reply}
    (h : c.handler.core env (.ok m) w = .ok (w', r)) : RegistryStep w m c w' r := by
  cases c with
  | eventRegister => exact eventRegister_step h
  | eventClear => exact eventClear_step h
  | startSyscall => exact startSyscall_step h
  | stopSyscall => exact stopSyscall_step h

/-- A registry handler that returns without reading its request would do the same for any. -/
theorem registry_unread {env : Env G} {c : RegistryCall} {e : Fault} {w w' : World G} {r : Reply}
    (h : c.handler.core env (.error e) w = .ok (w', r)) (m : Msg) :
    c.handler.core env (.ok m) w = .ok (w', r) := by
  cases c with
  | eventRegister =>
    change eventRegisterBody env (.error e) w = _ at h
    change eventRegisterBody env (.ok m) w = _
    unfold eventRegisterBody at h ⊢
    split at h
    · rename_i hfull
      rw [if_pos hfull]
      exact h
    · rename_i hroom
      rw [if_neg hroom]
      dsimp only at h ⊢
      split at h
      · rename_i hnone
        rw [if_pos hnone]
        exact h
      · cases h
  | eventClear => cases h
  | startSyscall =>
    change startSyscallBody env (.error e) w = _ at h
    change startSyscallBody env (.ok m) w = _
    unfold startSyscallBody at h ⊢
    split at h
    · dsimp only at h ⊢
      split at h
      · rename_i hnone
        rw [if_pos hnone]
        exact h
      · cases h
    · exact h
  | stopSyscall => exact h

/-- What a registry handler does it would do for some request, also when its own cannot be
    read. -/
theorem registry_read {env : Env G} {c : RegistryCall} {access : Except Fault Msg}
    {w w' : World G} {r : Reply} (h : c.handler.core env access w = .ok (w', r)) :
    ∃ m, c.handler.core env (.ok m) w = .ok (w', r) := by
  cases access with
  | ok m => exact ⟨m, h⟩
  | error e => exact ⟨Msg.empty, registry_unread h Msg.empty⟩

/-- No registry handler resolves links. -/
theorem RegistryCall.core_eq_body (c : RegistryCall) :
    (c.handler : Handler G).core = c.handler.body := by
  cases c <;> rfl

/-! ### Completeness -/

theorem RegistryStep.complete {w w' : World G} {m : Msg} {c : RegistryCall} {r : Reply}
    (h : RegistryStep w m c w' r) : r.Complete := by
  cases h with
  | refused _ _ _ _ hr => exact fun hnone => absurd hnone hr.1
  | unallocated => exact Reply.complete_of_error rfl
  | registered => exact Reply.ok_complete _
  | cleared => exact Reply.ok_complete _
  | started => exact Reply.ok_complete _
  | stopped => exact Reply.ok_complete _

/-- Registry handlers give complete replies, also when their request cannot be read. -/
theorem RegistryCall.handler_complete (c : RegistryCall) :
    (c.handler : Handler G).body.Complete := by
  intro env access w w' r h
  rw [← c.core_eq_body] at h
  obtain ⟨m, hread⟩ := registry_read h
  exact (registry_step hread).complete

/-! ### Failed assertions -/

/-- A failure of `ownerOf` is not a failed assertion. -/
theorem ownerOf_ne_assertion (ident : Bytes) : ownerOf ident ≠ .error .assertion := by
  unfold ownerOf
  split <;> simp

theorem addTrapFor_ne_assertion {env : Env G} {m : Msg} {kind : TrapKind} {obj : ℕ} {w : World G} :
    addTrapFor env m kind obj w ≠ .error .assertion := by
  intro h
  unfold addTrapFor at h
  rcases bind_eq_error.mp h with h | ⟨owner, -, h⟩
  · exact ownerOf_ne_assertion _ h
  · dsimp only at h
    split at h <;> cases h

/-- The one assertion: `stop_syscall` finds no entry under the plugin's identifier. -/
theorem registry_assertion {env : Env G} {m : Msg} {c : RegistryCall} {w : World G}
    (h : c.handler.core env (.ok m) w = .error .assertion) :
    c = .stopSyscall ∧ w.syscallPluginOwner ≠ none ∧ w.syscallPluginEventId ∉ w.events := by
  cases c with
  | eventRegister =>
    exfalso
    change eventRegisterBody env (.ok m) w = _ at h
    unfold eventRegisterBody at h
    split at h
    · cases h
    dsimp only at h
    split at h
    · cases h
    rcases bind_eq_error.mp h with h | ⟨m', -, h⟩
    · cases h
    split at h
    · split at h
      · exact addTrapFor_ne_assertion h
      · cases h
    · split at h
      · exact addTrapFor_ne_assertion h
      · cases h
  | eventClear =>
    exfalso
    rcases bind_eq_error.mp h with h | ⟨m', -, h⟩
    · cases h
    · dsimp only at h
      split at h <;> cases h
  | startSyscall =>
    exfalso
    change startSyscallBody env (.ok m) w = _ at h
    unfold startSyscallBody at h
    split at h
    · dsimp only at h
      split at h
      · cases h
      rcases bind_eq_error.mp h with h | ⟨m', -, h⟩
      · cases h
      rcases ite_error_eq_error.mp h with ⟨-, h⟩ | ⟨-, h⟩
      · rcases bind_eq_error.mp h with h | ⟨owner, -, h⟩
        · exact ownerOf_ne_assertion _ h
        · cases h
      · cases h
    · cases h
  | stopSyscall =>
    refine ⟨rfl, ?_⟩
    change stopSyscallBody env (.ok m) w = _ at h
    unfold stopSyscallBody at h
    split at h
    case h_1 => cases h
    case h_2 owner howner =>
      by_cases hmem : w.syscallPluginEventId ∈ w.events
      · rw [if_neg (not_not.mpr hmem)] at h
        cases h
      · exact ⟨by simp [howner], hmem⟩

end Furnace.Vmi
