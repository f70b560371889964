import Furnace.Lib.Transition
import Furnace.Vmi.Registry

namespace Furnace.Vmi

open Furnace.Proto Furnace.Lib

/-!
# The syscall plugin in the event registry

Runs of registry requests, from any clients and in any order.  The syscall plugin remembers
its owner, the identifier of its pseudo-event and the pseudo-event itself, and the `events`
map holds the pseudo-event too.  The two agree as long as no `event_clear` names the
identifier of the running plugin; `event_clear` does not treat that identifier specially.

* `registrySystem` — the VMI partition, one registry request a step; the guest may change
  in any way between two requests.
* `PluginConsistent` — what is wanted of every state.
* `RegistryInv` — the invariant: entries sit under their own identifiers, are allocated once
  and not freed, and only the plugin's has a NULL trap.
* `plugin_consistent` — every run that spares the plugin's entry keeps the two in agreement.
-/

variable {G : Type}

/-! ### Runs of requests -/

/-- A registry request, and the identity of the client that sent it. -/
structure Request where
  ident : Bytes
  call : RegistryCall
  m : Msg

/-- The handler of a request, once the client's identity has been copied. -/
def serve (env : Env G) (a : Request) (w : World G) : Except Fault (World G × Reply) :=
  a.call.handler.core env (.ok a.m) { w with scratchIdent := a.ident }

/-- The VMI partition under registry requests. -/
def registrySystem (env : Env G) : TransitionSystem (World G) Request where
  init w := ∃ g, w = World.initial g
  step w a w' := ∃ g r, serve env a { w with guest := g } = .ok (w', r)

/-- The map binds the plugin's identifier to the plugin's pseudo-event. -/
def PluginBound (w : World G) : Prop :=
  ∃ ei, w.events.lookup w.syscallPluginEventId = some ei ∧ w.syscallPluginEi = some ei.obj

/-- What is wanted of a state: the plugin has an owner exactly when the map holds its
    pseudo-event, nothing was freed twice, no NULL trap was removed, the assertion holds
    whatever is asked next, and a stop takes no other entry away. -/
structure PluginConsistent (w : World G) : Prop where
  bound : w.syscallPluginOwner ≠ none ↔ PluginBound w
  freedOnce : w.freed.Nodup
  noNullTrap : ExtOp.removeTrap none ∉ w.ops
  asserts : ∀ env a, serve env a w ≠ .error .assertion
  stopsOwn : ∀ env a w' r, a.call = .stopSyscall → serve env a w = .ok (w', r) →
    ∀ k ei, w.events.lookup k = some ei → w'.events.lookup k = none →
      w.syscallPluginEi = some ei.obj

/-- The request does not clear the entry of the running plugin. -/
def SparesPlugin (w : World G) (a : Request) : Prop :=
  a.call = .eventClear → w.syscallPluginOwner ≠ none → identifier a.m ≠ w.syscallPluginEventId

/-! ### Allocation -/

/-- Entries sit under their own identifiers, each is an allocation of its own that has not
    been freed, and nothing has been freed twice. -/
structure Allocated (w : World G) : Prop where
  key : ∀ k ei, w.events.lookup k = some ei → ei.id = k
  below : ∀ k ei, w.events.lookup k = some ei → ei.obj < w.nextAlloc
  distinct : ∀ k k' ei ei', w.events.lookup k = some ei → w.events.lookup k' = some ei' →
    ei.obj = ei'.obj → k = k'
  live : ∀ k ei, w.events.lookup k = some ei → ei.obj ∉ w.freed
  freedBelow : ∀ o ∈ w.freed, o < w.nextAlloc
  freedOnce : w.freed.Nodup

section Allocation

variable {w w' : World G}

theorem allocated_initial (g : G) : Allocated (World.initial g) where
  key := by simp [World.initial]
  below := by simp [World.initial]
  distinct := by simp [World.initial]
  live := by simp [World.initial]
  freedBelow := by simp [World.initial]
  freedOnce := by simp [World.initial]

/-- A request that fails may use up an allocation, and may free it. -/
theorem Allocated.refused (h : Allocated w) {alloc : ℕ} {fl : List ℕ}
    (hfl : alloc = w.nextAlloc ∧ fl = [] ∨
      alloc = w.nextAlloc + 1 ∧ (fl = [] ∨ fl = [w.nextAlloc]))
    (hevents : w'.events = w.events) (halloc : w'.nextAlloc = alloc)
    (hfreed : w'.freed = w.freed ++ fl) : Allocated w' := by
  have hle : w.nextAlloc ≤ w'.nextAlloc := by
    rcases hfl with ⟨rfl, -⟩ | ⟨rfl, -⟩ <;> omega
  have hmem : ∀ o ∈ w'.freed, o ∈ w.freed ∨ o = w.nextAlloc ∧ w'.nextAlloc = w.nextAlloc + 1 := by
    intro o ho
    rw [hfreed, List.mem_append] at ho
    rcases hfl with ⟨-, rfl⟩ | ⟨halloc', rfl | rfl⟩
    · exact .inl (by simpa using ho)
    · exact .inl (by simpa using ho)
    · rcases ho with ho | ho
      · exact .inl ho
      · exact .inr ⟨by simpa using ho, by rw [halloc, halloc']⟩
  have hlive : ∀ k ei, w.events.lookup k = some ei → ei.obj ∉ w'.freed := by
    intro k ei hk hfreed'
    have hlt : ei.obj < w.nextAlloc := h.below k ei hk
    rcases hmem _ hfreed' with hold | ⟨hnew, -⟩
    · exact h.live k ei hk hold
    · omega
  have hfreedBelow : ∀ o ∈ w'.freed, o < w'.nextAlloc := by
    intro o ho
    rcases hmem o ho with hold | ⟨rfl, hnext⟩
    · have hlt : o < w.nextAlloc := h.freedBelow o hold
      omega
    · omega
  have hfreedOnce : w'.freed.Nodup := by
    rw [hfreed]
    rcases hfl with ⟨-, rfl⟩ | ⟨-, rfl | rfl⟩
    · simpa using h.freedOnce
    · simpa using h.freedOnce
    · -- the allocation that is freed is new
      have hnew : w.nextAlloc ∉ w.freed := fun hin => absurd (h.freedBelow _ hin) (Nat.lt_irrefl _)
      exact List.nodup_append.mpr ⟨h.freedOnce, List.nodup_singleton _, fun a ha b hb hab =>
        hnew (List.mem_singleton.mp hb ▸ hab ▸ ha)⟩
  refine ⟨by rw [hevents]; exact h.key, ?_, by rw [hevents]; exact h.distinct, ?_, hfreedBelow,
    hfreedOnce⟩
  · rw [hevents]
    exact fun k ei hk => (h.below k ei hk).trans_le hle
  · rw [hevents]
    exact hlive

/-- A new allocation goes into the lowest free slot. -/
theorem Allocated.insert (h : Allocated w) {ei : EventItem} (hid : ei.id = firstFree w.events)
    (hobj : ei.obj = w.nextAlloc) (hevents : w'.events = w.events.insert ei.id ei)
    (halloc : w'.nextAlloc = w.nextAlloc + 1) (hfreed : w'.freed = w.freed) : Allocated w' where
  key := by
    rw [hevents]
    intro k e hk
    rcases lookup_insert_eq_some.mp hk with ⟨rfl, rfl⟩ | ⟨-, hold⟩
    · rfl
    · exact h.key k e hold
  below := by
    rw [hevents]
    intro k e hk
    rcases lookup_insert_eq_some.mp hk with ⟨-, rfl⟩ | ⟨-, hold⟩
    · omega
    · have hlt : e.obj < w.nextAlloc := h.below k e hold
      omega
  distinct := by
    rw [hevents]
    intro k k' e e' hk hk' hsame
    -- no earlier entry has the new allocation
    have hold : ∀ k e, w.events.lookup k = some e → e.obj ≠ ei.obj := by
      intro k e hk
      rw [hobj]
      exact (h.below k e hk).ne
    rcases lookup_insert_eq_some.mp hk with ⟨rfl, rfl⟩ | ⟨-, hin⟩
    · rcases lookup_insert_eq_some.mp hk' with ⟨rfl, -⟩ | ⟨-, hin'⟩
      · rfl
      · exact absurd hsame.symm (hold k' e' hin')
    · rcases lookup_insert_eq_some.mp hk' with ⟨-, rfl⟩ | ⟨-, hin'⟩
      · exact absurd hsame (hold k e hin)
      · exact h.distinct k k' e e' hin hin' hsame
  live := by
    rw [hevents, hfreed]
    intro k e hk hmem
    have hlt : e.obj < w.nextAlloc := h.freedBelow _ hmem
    rcases lookup_insert_eq_some.mp hk with ⟨-, rfl⟩ | ⟨-, hold⟩
    · omega
    · exact h.live k e hold hmem
  freedBelow := by
    rw [hfreed, halloc]
    exact fun o ho => (h.freedBelow o ho).trans (Nat.lt_succ_self _)
  freedOnce := by
    rw [hfreed]
    exact h.freedOnce

/-- An entry is taken out and freed. -/
theorem Allocated.erase (h : Allocated w) {k : ℕ} {ei : EventItem}
    (hk : w.events.lookup k = some ei) (hevents : w'.events = w.events.erase k)
    (halloc : w'.nextAlloc = w.nextAlloc) (hfreed : w'.freed = w.freed ++ [ei.obj]) :
    Allocated w' where
  key := by
    rw [hevents]
    exact fun k' e hk' => h.key k' e (lookup_erase_eq_some.mp hk').2
  below := by
    rw [hevents, halloc]
    exact fun k' e hk' => h.below k' e (lookup_erase_eq_some.mp hk').2
  distinct := by
    rw [hevents]
    exact fun k₁ k₂ e₁ e₂ h₁ h₂ =>
      h.distinct k₁ k₂ e₁ e₂ (lookup_erase_eq_some.mp h₁).2 (lookup_erase_eq_some.mp h₂).2
  live := by
    rw [hevents, hfreed]
    intro k' e hk' hmem
    obtain ⟨hne, hold⟩ := lookup_erase_eq_some.mp hk'
    rcases List.mem_append.mp hmem with hmem | hsame
    · exact h.live k' e hold hmem
    · exact hne (h.distinct k' k e ei hold hk (List.mem_singleton.mp hsame))
  freedBelow := by
    rw [hfreed, halloc]
    intro o ho
    rcases List.mem_append.mp ho with ho | ho
    · exact h.freedBelow o ho
    · rw [List.mem_singleton.mp ho]
      exact h.below k ei hk
  freedOnce := by
    rw [hfreed, List.nodup_append]
    refine ⟨h.freedOnce, List.nodup_singleton _, fun a ha b hb hab => ?_⟩
    rw [List.mem_singleton.mp hb] at hab
    exact h.live k ei hk (hab ▸ ha)

end Allocation

/-! ### The invariant -/

/-- The invariant of the registry: besides the allocations, only the plugin's entry has a
    NULL trap, no NULL trap was removed, and the plugin's memory agrees with the map. -/
structure RegistryInv (w : World G) : Prop where
  entries : Allocated w
  pluginBelow : ∀ o, w.syscallPluginEi = some o → o < w.nextAlloc
  noNullTrap : ExtOp.removeTrap none ∉ w.ops
  nullTrap : ∀ k ei, w.events.lookup k = some ei → ei.event = none →
    w.syscallPluginOwner ≠ none ∧ k = w.syscallPluginEventId
  bound : w.syscallPluginOwner ≠ none ↔ PluginBound w

theorem registryInv_initial (g : G) : RegistryInv (World.initial g) where
  entries := allocated_initial g
  pluginBelow := by simp [World.initial]
  noNullTrap := by simp [World.initial]
  nullTrap := by simp [World.initial]
  bound := by simp [World.initial, PluginBound]

/-- The guest, and who is served, do not matter. -/
theorem RegistryInv.of_guest {w : World G} (h : RegistryInv w) (g : G) (ident : Bytes) :
    RegistryInv { w with guest := g, scratchIdent := ident } :=
  ⟨⟨h.entries.key, h.entries.below, h.entries.distinct, h.entries.live, h.entries.freedBelow,
    h.entries.freedOnce⟩, h.pluginBelow, h.noNullTrap, h.nullTrap, h.bound⟩

/-- A new entry under a new allocation is not the plugin's. -/
theorem pluginBound_insert {w w' : World G} {ei : EventItem}
    (hbelow : ∀ o, w.syscallPluginEi = some o → o < w.nextAlloc)
    (hid : ei.id = firstFree w.events) (hobj : ei.obj = w.nextAlloc)
    (hevents : w'.events = w.events.insert ei.id ei)
    (hpid : w'.syscallPluginEventId = w.syscallPluginEventId)
    (hpei : w'.syscallPluginEi = w.syscallPluginEi) : PluginBound w' ↔ PluginBound w := by
  unfold PluginBound
  rw [hevents, hpid, hpei]
  constructor
  · rintro ⟨e, he, hsame⟩
    rcases lookup_insert_eq_some.mp he with ⟨-, rfl⟩ | ⟨-, hold⟩
    · have := hbelow _ hsame
      omega
    · exact ⟨e, hold, hsame⟩
  · rintro ⟨e, he, hsame⟩
    -- the recorded identifier is taken, the new one was free
    have hne : w.syscallPluginEventId ≠ ei.id := by
      rw [hid]
      exact ne_firstFree_of_lookup he
    exact ⟨e, lookup_insert_eq_some.mpr (.inr ⟨hne, he⟩), hsame⟩

/-- An entry under another identifier is not the plugin's. -/
theorem pluginBound_erase {w w' : World G} {k : ℕ} (hne : k ≠ w.syscallPluginEventId)
    (hevents : w'.events = w.events.erase k)
    (hpid : w'.syscallPluginEventId = w.syscallPluginEventId)
    (hpei : w'.syscallPluginEi = w.syscallPluginEi) : PluginBound w' ↔ PluginBound w := by
  unfold PluginBound
  rw [hevents, hpid, hpei, AList.lookup_erase_ne hne.symm]

section Step

variable {w w' : World G} {m : Msg} {c : RegistryCall} {r : Reply}

/-- No NULL trap has been removed if none is now. -/
theorem RegistryInv.ops_append (h : RegistryInv w) {new : List ExtOp}
    (hnew : ExtOp.removeTrap none ∉ new) : ExtOp.removeTrap none ∉ w.ops ++ new := by
  intro hmem
  exact (List.mem_append.mp hmem).elim h.noNullTrap hnew

/-- An event is registered. -/
theorem RegistryInv.registered (h : RegistryInv w) {g : G} {new : List ExtOp} {ei : EventItem}
    (hid : ei.id = firstFree w.events) (hobj : ei.obj = w.nextAlloc) (hevent : ei.event.isSome)
    (hnew : ExtOp.removeTrap none ∉ new) :
    RegistryInv { w with guest := g, ops := w.ops ++ new, events := w.events.insert ei.id ei,
                         nextAlloc := w.nextAlloc + 1 } where
  entries := h.entries.insert hid hobj rfl rfl rfl
  pluginBelow o ho := (h.pluginBelow o ho).trans (Nat.lt_succ_self _)
  noNullTrap := h.ops_append hnew
  nullTrap k e hk hnull := by
    rcases lookup_insert_eq_some.mp hk with ⟨-, rfl⟩ | ⟨-, hold⟩
    · rw [hnull] at hevent
      cases hevent
    · exact h.nullTrap k e hold hnull
  bound := by
    refine h.bound.trans ?_
    symm
    exact pluginBound_insert h.pluginBelow hid hobj rfl rfl rfl

/-- The event under a name that is not the running plugin's is cleared. -/
theorem RegistryInv.cleared (h : RegistryInv w) {g : G} {k : ℕ} {ei : EventItem}
    (hei : w.events.lookup k = some ei)
    (hspare : w.syscallPluginOwner ≠ none → k ≠ w.syscallPluginEventId) :
    RegistryInv { w with guest := g, ops := w.ops ++ [.pause, .removeTrap ei.event, .resume],
                         events := w.events.erase k, freed := w.freed ++ [ei.obj] } where
  entries := h.entries.erase hei rfl rfl rfl
  pluginBelow := h.pluginBelow
  noNullTrap := by
    apply h.ops_append
    simp only [List.mem_cons, reduceCtorEq, ExtOp.removeTrap.injEq, List.not_mem_nil, or_false,
      false_or]
    intro hnull
    -- a NULL trap is the running plugin's, which the request spares
    obtain ⟨howner, hid⟩ := h.nullTrap _ ei hei hnull.symm
    exact hspare howner hid
  nullTrap k e hk hnull := h.nullTrap k e (lookup_erase_eq_some.mp hk).2 hnull
  bound := by
    by_cases howner : w.syscallPluginOwner = none
    · -- the plugin has no entry before, and so none after
      refine ⟨fun hne => absurd howner hne, ?_⟩
      rintro ⟨e, he, hsame⟩
      exact h.bound.mpr ⟨e, (lookup_erase_eq_some.mp he).2, hsame⟩
    · refine h.bound.trans ?_
      symm
      exact pluginBound_erase (hspare howner) rfl rfl rfl

/-- The plugin is started. -/
theorem RegistryInv.started (h : RegistryInv w) {g : G} {new : List ExtOp} {ei : EventItem}
    {owner : Bytes} (howner : w.syscallPluginOwner = none) (hid : ei.id = firstFree w.events)
    (hobj : ei.obj = w.nextAlloc) (hnew : ExtOp.removeTrap none ∉ new) :
    RegistryInv { w with guest := g, ops := w.ops ++ new, events := w.events.insert ei.id ei,
                         syscallPluginEi := some ei.obj, syscallPluginEventId := ei.id,
                         syscallPluginSyncState := ei.syncState,
                         syscallPluginOwner := some owner, nextAlloc := w.nextAlloc + 1 } where
  entries := h.entries.insert hid hobj rfl rfl rfl
  pluginBelow o ho := by
    show o < w.nextAlloc + 1
    -- the recorded pointer is the new allocation itself
    have hsame : ei.obj = o := Option.some.inj ho
    omega
  noNullTrap := h.ops_append hnew
  nullTrap k e hk hnull := by
    rcases lookup_insert_eq_some.mp hk with ⟨rfl, -⟩ | ⟨-, hold⟩
    · exact ⟨Option.some_ne_none owner, rfl⟩
    · exact absurd howner (h.nullTrap k e hold hnull).1
  bound := by
    have hbound : (w.events.insert ei.id ei).lookup ei.id = some ei :=
      lookup_insert_eq_some.mpr (.inl ⟨rfl, rfl⟩)
    exact ⟨fun _ => ⟨ei, hbound, rfl⟩, fun _ => Option.some_ne_none owner⟩

/-- The plugin is stopped. -/
theorem RegistryInv.stopped (h : RegistryInv w) {g : G} (howner : w.syscallPluginOwner ≠ none) :
    RegistryInv { w with guest := g, ops := w.ops ++ [.pause, .deleteSyscalls, .resume],
                         events := w.events.erase w.syscallPluginEventId,
                         freed := w.freed ++ w.syscallPluginEi.toList,
                         syscallPluginOwner := none } where
  entries := by
    -- the recorded pointer is that of the entry which is erased
    obtain ⟨ei, hei, hsame⟩ := h.bound.mp howner
    refine h.entries.erase hei rfl rfl ?_
    show w.freed ++ w.syscallPluginEi.toList = w.freed ++ [ei.obj]
    rw [hsame]
    rfl
  pluginBelow := h.pluginBelow
  noNullTrap := h.ops_append (by simp)
  nullTrap k e hk hnull := by
    -- a NULL trap that is left would be under the erased identifier
    obtain ⟨hne, hold⟩ := lookup_erase_eq_some.mp hk
    exact absurd (h.nullTrap k e hold hnull).2 hne
  bound := by
    refine ⟨fun hne => absurd rfl hne, ?_⟩
    rintro ⟨e, he, -⟩
    exact absurd rfl (lookup_erase_eq_some.mp he).1

/-- **One request.** A request that spares the plugin's entry keeps the invariant. -/
theorem RegistryInv.step (h : RegistryInv w) (hspare : c = .eventClear →
      w.syscallPluginOwner ≠ none → identifier m ≠ w.syscallPluginEventId)
    (hs : RegistryStep w m c w' r) : RegistryInv w' := by
  cases hs with
  | refused g new alloc fl hr hentry hnew hfl hw =>
    subst hw
    have hle : w.nextAlloc ≤ alloc := by
      rcases hfl with ⟨rfl, -⟩ | ⟨rfl, -⟩ <;> omega
    exact ⟨h.entries.refused hfl rfl rfl rfl, fun o ho => (h.pluginBelow o ho).trans_le hle,
      h.ops_append (hnew none), h.nullTrap, h.bound⟩
  | registered g new ei hroom hid hobj hevent hactive hsync hnew hw =>
    subst hw
    exact h.registered hid hobj hevent (hnew none)
  | cleared g ei hei hw =>
    subst hw
    -- the slot that is emptied is the one that was found
    rw [h.entries.key _ _ hei]
    exact h.cleared hei (hspare rfl)
  | unallocated g howner hw =>
    subst hw
    exact ⟨h.entries.refused (.inl ⟨rfl, rfl⟩) rfl rfl (List.append_nil _).symm, h.pluginBelow,
      h.ops_append (by simp), h.nullTrap, h.bound⟩
  | started g new ei owner howner hid hobj hevent hnew hw =>
    subst hw
    exact h.started howner hid hobj (hnew none)
  | stopped g howner hmem hw =>
    subst hw
    exact h.stopped howner

end Step

/-- Every run that spares the plugin's entry keeps the invariant. -/
theorem registryInv_reach {env : Env G} {w : World G}
    (h : Reach (registrySystem env) SparesPlugin w) : RegistryInv w := by
  refine h.invariant RegistryInv ?_ ?_
  · rintro w ⟨g, rfl⟩
    exact registryInv_initial g
  · rintro w a w' hinv hspare ⟨g, r, hserve⟩
    exact (hinv.of_guest g a.ident).step hspare (registry_step hserve)

/-! ### The plugin and the map agree -/

/-- What the invariant says about the next request. -/
theorem RegistryInv.consistent {w : World G} (h : RegistryInv w) : PluginConsistent w where
  bound := h.bound
  freedOnce := h.entries.freedOnce
  noNullTrap := h.noNullTrap
  asserts env a hserve := by
    obtain ⟨-, howner, hmem⟩ := registry_assertion hserve
    obtain ⟨ei, hei, -⟩ := h.bound.mp howner
    apply hmem
    show w.syscallPluginEventId ∈ w.events
    exact mem_of_lookup hei
  stopsOwn env a w' r hcall hserve k ei hk hnone := by
    have hstep := registry_step hserve
    rw [hcall] at hstep
    cases hstep with
    | refused g new alloc fl hr hentry hnew hfl hw =>
      subst hw
      rw [show AList.lookup k w.events = none from hnone] at hk
      cases hk
    | stopped g howner hmem hw =>
      subst hw
      obtain ⟨e, he, hsame⟩ := h.bound.mp howner
      -- only the entry under the recorded identifier goes away
      have hkey : k = w.syscallPluginEventId := by
        by_contra hne
        have hold : (w.events.erase w.syscallPluginEventId).lookup k = some ei :=
          lookup_erase_eq_some.mpr ⟨hne, hk⟩
        rw [show (w.events.erase w.syscallPluginEventId).lookup k = none from hnone] at hold
        cases hold
      subst hkey
      rw [he] at hk
      cases hk
      exact hsame

/-- **The plugin and the map agree.** In every state of a run in which no `event_clear` names
    the identifier of the running plugin, the plugin has an owner exactly when the map holds
    its pseudo-event, and nothing that this promises goes wrong. -/
theorem plugin_consistent {env : Env G} {w : World G}
    (h : Reach (registrySystem env) SparesPlugin w) : PluginConsistent w :=
  (registryInv_reach h).consistent

/-- A client starts the plugin. -/
def startRequest : Request := ⟨[102, 48, 100], .startSyscall, Msg.empty⟩

/-- A client clears the event `0`. -/
def clearRequest : Request :=
  ⟨[102, 49, 100], .eventClear, Msg.empty.set .identifier (.u64 0)⟩

/-- A client stops the plugin. -/
def stopRequest : Request := ⟨[102, 48, 100], .stopSyscall, Msg.empty⟩

theorem plugin_consistent_started :
    ∃ w : World Unit, w.syscallPluginOwner ≠ none ∧ PluginConsistent w := by
  have hrun : ∃ w r, serve echoEnv startRequest { World.initial () with guest := () } = .ok (w, r) ∧
      w.syscallPluginOwner ≠ none := by
    refine ⟨_, _, rfl, ?_⟩
    exact Option.some_ne_none _
  obtain ⟨w, r, hserve, howner⟩ := hrun
  have hspare : SparesPlugin (World.initial ()) startRequest := fun hcall => by cases hcall
  have hreach : Reach (registrySystem echoEnv) SparesPlugin w :=
    .step (.init ⟨(), rfl⟩) hspare ⟨(), r, hserve⟩
  exact ⟨w, howner, plugin_consistent hreach⟩

/-- Once the entry of the running plugin has been cleared, the plugin has an owner and no
    entry, and stopping it fails the assertion. -/
theorem plugin_consistent_fails :
    ¬∀ w : World Unit, Reach (registrySystem echoEnv) (fun _ _ => True) w → PluginConsistent w := by
  intro hall
  have hrun : ∃ w₁ r₁ w₂ r₂,
      serve echoEnv startRequest { World.initial () with guest := () } = .ok (w₁, r₁) ∧
      serve echoEnv clearRequest { w₁ with guest := () } = .ok (w₂, r₂) ∧
      serve echoEnv stopRequest w₂ = .error .assertion := by
    refine ⟨_, _, _, _, rfl, rfl, ?_⟩
    rfl
  obtain ⟨w₁, r₁, w₂, r₂, hstart, hclear, hassert⟩ := hrun
  have hreach : Reach (registrySystem echoEnv) (fun _ _ => True) w₂ :=
    .step (.step (.init ⟨(), rfl⟩) trivial ⟨(), r₁, hstart⟩) trivial ⟨(), r₂, hclear⟩
  exact (hall w₂ hreach).asserts echoEnv stopRequest hassert

end Furnace.Vmi
